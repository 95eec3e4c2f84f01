import SimpleProcessMonitor.Library.Forest
import SimpleProcessMonitor.SnapshotChecks
import Mathlib.Algebra.Group.Prod
import Mathlib.Algebra.BigOperators.Pi
import Mathlib.Algebra.Order.BigOperators.Group.Finset

/-!
The recursive fill on a linked array: what `_fillProcessTree` writes into the entries of
the chosen root's tree, and that it leaves every other entry alone.
-/

namespace SimpleProcessMonitor

open Forest

/-! The part of an entry that the fill never writes. -/

def fixedPart (entry : ProcessTreeT) : ProcessTreeT :=
  { entry with
    visited := false
    children.total := 0
    threads.children := 0
    cpu.usage.children := 0
    memory.usageTotal := 0
    filedescriptors.usageTotal := 0 }

theorem fixedPart_startFill (entry : ProcessTreeT) :
    fixedPart (startFill entry) = fixedPart entry := rfl

theorem fixedPart_addTotals (child entry : ProcessTreeT) :
    fixedPart (addTotals child entry) = fixedPart entry := rfl

theorem start_fixed (index : Nat) (state : FillState) :
    (state.start index).pt.map fixedPart = state.pt.map fixedPart :=
  map_modify_same fixedPart startFill fixedPart_startFill _ _

theorem finish_fixed (index : Nat) (state : FillState) :
    (state.finish index).pt.map fixedPart = state.pt.map fixedPart := by
  simp only [FillState.finish]
  split
  · exact map_modify_same fixedPart _ (fixedPart_addTotals _) _ _
  · rfl

theorem fillProcessTree_fixed (fuel index : Nat) (state final : FillState)
    (finished : fillProcessTree fuel index state = some final) :
    final.pt.map fixedPart = state.pt.map fixedPart := by
  induction fuel generalizing index state final with
  | zero => simp [fillProcessTree] at finished
  | succ fuel ih =>
      simp only [fillProcessTree] at finished
      split at finished
      · simp only [Option.some.injEq] at finished
        rw [finished]
      · obtain ⟨filled, reached, last⟩ := Option.map_eq_some_iff.mp finished
        have kept := Loop.foldlM_range_partial
          (fun _ current => current.pt.map fixedPart = state.pt.map fixedPart) _
          (fun _ current next _ same found => (ih _ current next found).trans same)
          (start_fixed index state) reached
        rw [← last, finish_fixed, kept]

theorem fillTree_fixed (pt : Entries) (root : Nat) :
    (fillTree pt root).pt.map fixedPart = pt.map fixedPart :=
  fillProcessTree_fixed _ root { pt := pt } _ (Option.some_get (fillProcessTree_isSome pt root)).symm

/-! The accumulators. -/

/-- `children.total`, `threads.children`, `cpu.usage.children`, `memory.usage_total` and
`filedescriptors.usage_total`. -/
abbrev Totals := ℕ × ℤ × ℚ × ℕ × ℤ

def totals (entry : ProcessTreeT) : Totals :=
  (entry.children.total, entry.threads.children, entry.cpu.usage.children,
    entry.memory.usageTotal, entry.filedescriptors.usageTotal)

theorem entry_ext {first second : ProcessTreeT} (fixed : fixedPart first = fixedPart second)
    (visited : first.visited = second.visited) (same : totals first = totals second) :
    first = second := by
  simp only [totals, Prod.mk.injEq] at same
  obtain ⟨children, threads, cpu, memory, filedescriptors⟩ := same
  let restored (entry : ProcessTreeT) : ProcessTreeT :=
    { fixedPart entry with
      visited := first.visited
      children.total := first.children.total
      threads.children := first.threads.children
      cpu.usage.children := first.cpu.usage.children
      memory.usageTotal := first.memory.usageTotal
      filedescriptors.usageTotal := first.filedescriptors.usageTotal }
  have whole : restored second = second := by
    simp only [restored, visited, children, threads, cpu, memory, filedescriptors]
    rfl
  rw [← whole]
  exact congrArg (fun entry => { entry with
    visited := first.visited
    children.total := first.children.total
    threads.children := first.threads.children
    cpu.usage.children := first.cpu.usage.children
    memory.usageTotal := first.memory.usageTotal
    filedescriptors.usageTotal := first.filedescriptors.usageTotal }) fixed

def contribution (entry : ProcessTreeT) (total : Totals) : Totals :=
  (total.1,
    (if entry.threads.self > 1 then entry.threads.self else 1) +
      (if total.2.1 > 0 then total.2.1 else 0),
    (if entry.cpu.usage.self ≥ 0 then entry.cpu.usage.self else 0) +
      (if total.2.2.1 ≥ 0 then total.2.2.1 else 0),
    total.2.2.2.1, total.2.2.2.2)

theorem totals_addTotals (child parent : ProcessTreeT) :
    totals (addTotals child parent) = totals parent + contribution child (totals child) := by
  simp only [totals, addTotals, contribution, Prod.mk_add_mk, add_assoc]
  rfl

theorem totals_startFill_congr {first second : ProcessTreeT}
    (same : fixedPart first = fixedPart second) :
    totals (startFill first) = totals (startFill second) := by
  have count : first.children.count = second.children.count := congrArg (·.children.count) same
  have memory : first.memory.usage = second.memory.usage := congrArg (·.memory.usage) same
  have files : first.filedescriptors.usage = second.filedescriptors.usage :=
    congrArg (·.filedescriptors.usage) same
  simp only [totals, startFill, count, memory, files]

theorem contribution_congr {first second : ProcessTreeT}
    (same : fixedPart first = fixedPart second) (total : Totals) :
    contribution first total = contribution second total := by
  have threads : first.threads.self = second.threads.self := congrArg (·.threads.self) same
  have cpu : first.cpu.usage.self = second.cpu.usage.self := congrArg (·.cpu.usage.self) same
  simp only [contribution, threads, cpu]

/-! The forest of a linked array. -/

def childrenList (pt : Entries) (index : Nat) : List Nat :=
  (entryAt pt index).children.list

theorem Linked.mem_childrenList {pt : Entries} (linked : Linked pt pt.length) {parent child : Nat} :
    child ∈ childrenList pt parent ↔ parent < pt.length ∧ child < pt.length ∧
      ¬selfParented (entryAt pt child) ∧ (entryAt pt child).parent = parent := by
  by_cases inside : parent < pt.length
  · rw [childrenList, linked.lists parent inside, mem_childrenOf]
    simp [inside]
  · rw [childrenList, entryAt_of_le (Nat.not_lt.mp inside)]
    simp [inside]

theorem Linked.isForest {pt : Entries} (linked : Linked pt pt.length) :
    IsForest (childrenList pt) := by
  constructor
  · intro first second child left right
    have leftParent := (linked.mem_childrenList.mp left).2.2.2
    have rightParent := (linked.mem_childrenList.mp right).2.2.2
    omega
  · intro parent
    by_cases inside : parent < pt.length
    · rw [childrenList, linked.lists parent inside]
      exact List.nodup_range.filter _
    · rw [childrenList, entryAt_of_le (Nat.not_lt.mp inside)]
      exact List.nodup_nil

theorem Linked.within_lt {pt : Entries} (linked : Linked pt pt.length) {index target : Nat}
    (inside : index < pt.length) (path : Within (childrenList pt) index target) :
    target < pt.length := by
  induction path with
  | refl => exact inside
  | tail _ edge _ => exact (linked.mem_childrenList.mp edge).2.1

theorem Linked.root_acyclic {pt : Entries} (linked : Linked pt pt.length) {root target : Nat}
    (own : selfParented (entryAt pt root)) (path : Within (childrenList pt) root target) :
    ¬Below (childrenList pt) target target := by
  apply acyclic_of_root linked.isForest _ path
  intro parent member
  exact (linked.mem_childrenList.mp member).2.2.1 own

theorem Linked.root_within {pt : Entries} (linked : Linked pt pt.length) {root other : Nat}
    (own : selfParented (entryAt pt other)) (path : Within (childrenList pt) root other) :
    other = root := by
  rcases Relation.ReflTransGen.cases_tail_iff _ _ _ |>.mp path with same | ⟨parent, _, edge⟩
  · exact same
  · exact absurd own (linked.mem_childrenList.mp edge).2.2.1

theorem ne_of_mem_take {items : List Nat} (distinct : items.Nodup) {count other : Nat}
    (inside : count < items.length) (known : other ∈ items.take count) : other ≠ items[count] := by
  intro equal
  obtain ⟨position, below, value⟩ := List.mem_iff_getElem.mp known
  have early : position < count := lt_of_lt_of_le below (List.length_take_le _ _)
  rw [List.getElem_take] at value
  have positions := (List.Nodup.getElem_inj_iff distinct).mp (value.trans equal)
  omega

/-! One call on an entry whose subtree is still unmarked. -/

section Call

variable (pt : Entries) (total : Nat → Totals)

/-- The effect of a whole call: the subtree is marked and has its totals, the parent got
the contribution, and each entry of the subtree was processed once. -/
structure Filled (index : Nat) (before after : FillState) : Prop where
  fixed : after.pt.map fixedPart = pt.map fixedPart
  inside : ∀ target, Within (childrenList pt) index target →
    (entryAt after.pt target).visited = true ∧ totals (entryAt after.pt target) = total target
  outside : ∀ target, ¬Within (childrenList pt) index target →
    (entryAt after.pt target).visited = (entryAt before.pt target).visited ∧
    totals (entryAt after.pt target) = totals (entryAt before.pt target) +
      if (entryAt pt index).parent = target then contribution (entryAt pt index) (total index)
      else 0
  processed : ∀ target, Within (childrenList pt) index target →
    after.processed.count target = before.processed.count target + 1
  skipped : ∀ target, ¬Within (childrenList pt) index target →
    after.processed.count target = before.processed.count target

/-- The same in the middle of the loop over the children, `done` being those handled. -/
structure Filling (index : Nat) (done : List Nat) (before current : FillState) : Prop where
  fixed : current.pt.map fixedPart = pt.map fixedPart
  inside : ∀ child ∈ done, ∀ target, Within (childrenList pt) child target →
    (entryAt current.pt target).visited = true ∧ totals (entryAt current.pt target) = total target
  self : (entryAt current.pt index).visited = true ∧
    totals (entryAt current.pt index) = totals (startFill (entryAt pt index)) +
      (done.map fun child => contribution (entryAt pt child) (total child)).sum
  outside : ∀ target, target ≠ index →
    (∀ child ∈ done, ¬Within (childrenList pt) child target) →
    (entryAt current.pt target).visited = (entryAt before.pt target).visited ∧
    totals (entryAt current.pt target) = totals (entryAt before.pt target)
  processed : ∀ target, (target = index ∨ ∃ child ∈ done, Within (childrenList pt) child target) →
    current.processed.count target = before.processed.count target + 1
  skipped : ∀ target, target ≠ index →
    (∀ child ∈ done, ¬Within (childrenList pt) child target) →
    current.processed.count target = before.processed.count target

variable {pt total}

theorem filling_start {index : Nat} {before : FillState}
    (same : before.pt.map fixedPart = pt.map fixedPart) (bound : index < pt.length) :
    Filling pt total index [] before (before.start index) := by
  have lengths : before.pt.length = pt.length := by simpa using congrArg List.length same
  constructor
  · rw [start_fixed, same]
  · intro child impossible
    simp at impossible
  · simp only [FillState.start]
    rw [entryAt_modify_self _ (by omega)]
    refine ⟨rfl, ?_⟩
    rw [List.map_nil, List.sum_nil, add_zero]
    exact totals_startFill_congr (entryAt_congr fixedPart same index)
  · intro target different _
    simp only [FillState.start]
    rw [entryAt_modify_ne _ _ (Ne.symm different)]
    exact ⟨rfl, rfl⟩
  · intro target
    rintro (same | ⟨child, impossible, _⟩)
    · simp [FillState.start, same]
    · simp at impossible
  · intro target different _
    simp [FillState.start, List.count_cons_of_ne different.symm]

theorem Filling.untouched {index child : Nat} {done : List Nat} {before current : FillState}
    (linked : Linked pt pt.length) (member : child ∈ childrenList pt index)
    (acyclic : ¬Below (childrenList pt) index index)
    (apart : ∀ other ∈ done, other ∈ childrenList pt index ∧ other ≠ child)
    (filling : Filling pt total index done before current) {target : Nat}
    (path : Within (childrenList pt) child target) :
    (entryAt current.pt target).visited = (entryAt before.pt target).visited := by
  have notSelf : target ≠ index := fun same => not_within_child acyclic member (same ▸ path)
  refine (filling.outside target notSelf ?_).1
  intro other known walk
  exact siblings_disjoint linked.isForest acyclic (apart other known).1 member
    (apart other known).2 walk path

theorem Filling.child {index child : Nat} {done : List Nat} {before current next : FillState}
    (linked : Linked pt pt.length) (member : child ∈ childrenList pt index)
    (acyclic : ¬Below (childrenList pt) index index)
    (apart : ∀ other ∈ done, other ∈ childrenList pt index ∧ other ≠ child)
    (filling : Filling pt total index done before current)
    (filled : Filled pt total child current next) :
    Filling pt total index (done ++ [child]) before next := by
  have parentEq : (entryAt pt child).parent = index := (linked.mem_childrenList.mp member).2.2.2
  have selfOut : ¬Within (childrenList pt) child index := not_within_child acyclic member
  have disjoint {other target : Nat} (known : other ∈ done)
      (path : Within (childrenList pt) other target) : ¬Within (childrenList pt) child target :=
    siblings_disjoint linked.isForest acyclic (apart other known).1 member (apart other known).2 path
  have elsewhere {target : Nat} (notSelf : target ≠ index)
      (out : ¬Within (childrenList pt) child target) :
      (entryAt next.pt target).visited = (entryAt current.pt target).visited ∧
        totals (entryAt next.pt target) = totals (entryAt current.pt target) := by
    obtain ⟨visited, value⟩ := filled.outside target out
    rw [if_neg (by omega), add_zero] at value
    exact ⟨visited, value⟩
  constructor
  · exact filled.fixed
  · intro other known target path
    rcases List.mem_append.mp known with older | last
    · have out := disjoint older path
      have notSelf : target ≠ index := by
        intro same
        exact not_within_child acyclic (apart other older).1 (same ▸ path)
      obtain ⟨visited, value⟩ := elsewhere notSelf out
      rw [visited, value]
      exact filling.inside other older target path
    · have same : other = child := by simpa using last
      exact filled.inside target (same ▸ path)
  · obtain ⟨visited, value⟩ := filled.outside index selfOut
    rw [if_pos parentEq, filling.self.2] at value
    refine ⟨visited.trans filling.self.1, ?_⟩
    rw [value, List.map_append, List.sum_append, add_assoc]
    simp
  · intro target notSelf out
    have outChild := out child (by simp)
    obtain ⟨visited, value⟩ := elsewhere notSelf outChild
    obtain ⟨visitedBefore, valueBefore⟩ := filling.outside target notSelf
      (fun other known => out other (List.mem_append_left _ known))
    exact ⟨visited.trans visitedBefore, value.trans valueBefore⟩
  · intro target
    rintro (same | ⟨other, known, path⟩)
    · subst target
      rw [filled.skipped index selfOut, filling.processed index (Or.inl rfl)]
    · rcases List.mem_append.mp known with older | last
      · rw [filled.skipped target (disjoint older path),
          filling.processed target (Or.inr ⟨other, older, path⟩)]
      · have same : other = child := by simpa using last
        subst other
        have notSelf : target ≠ index := fun same => selfOut (same ▸ path)
        rw [filled.processed target path, filling.skipped target notSelf
          (fun other older walk => disjoint older walk path)]
  · intro target notSelf out
    rw [filled.skipped target (out child (by simp)), filling.skipped target notSelf
      (fun other known => out other (List.mem_append_left _ known))]

theorem finish_processed (index : Nat) (current : FillState) :
    (current.finish index).processed = current.processed := by
  simp only [FillState.finish]
  split <;> rfl

/-- The parent lies outside the subtree unless the entry is its own parent. -/
theorem finish_totals {index : Nat} {current : FillState} (linked : Linked pt pt.length)
    (bound : index < pt.length) (same : current.pt.map fixedPart = pt.map fixedPart)
    (target : Nat) :
    totals (entryAt (current.finish index).pt target) = totals (entryAt current.pt target) +
      if (entryAt pt index).parent = target ∧ target ≠ index then
        contribution (entryAt current.pt index) (totals (entryAt current.pt index))
      else 0 := by
  have lengths : current.pt.length = pt.length := by simpa using congrArg List.length same
  have parentSame : (entryAt current.pt index).parent = (entryAt pt index).parent :=
    congrArg (·.parent) (entryAt_congr fixedPart same index)
  simp only [FillState.finish]
  by_cases own : selfParented (entryAt pt index)
  · have atSelf := linked.rootParent index bound own
    rw [if_neg (by rw [parentSame, atSelf]; simp), if_neg (by rw [atSelf]; omega), add_zero]
  · obtain ⟨parent, parentBound, parentEq, pidEq⟩ := linked.childParent index bound own
    have different : parent ≠ index := fun equal => own (Or.inl (equal ▸ pidEq))
    rw [if_pos (by rw [parentSame, parentEq]; omega), parentSame, parentEq, Int.toNat_natCast]
    by_cases here : parent = target
    · subst target
      rw [entryAt_modify_self _ (by omega), totals_addTotals]
      simp [different]
    · have elsewhere : ¬((parent : Int) = target ∧ target ≠ index) := by omega
      rw [entryAt_modify_ne _ _ here, if_neg elsewhere, add_zero]

theorem Filling.finish {index : Nat} {before current : FillState} (linked : Linked pt pt.length)
    (bound : index < pt.length) (acyclic : ¬Below (childrenList pt) index index)
    (recursion : total index = totals (startFill (entryAt pt index)) +
      ((childrenList pt index).map fun child => contribution (entryAt pt child) (total child)).sum)
    (filling : Filling pt total index (childrenList pt index) before current) :
    Filled pt total index before (current.finish index) := by
  have fixedIndex : fixedPart (entryAt current.pt index) = fixedPart (entryAt pt index) :=
    entryAt_congr fixedPart filling.fixed index
  have given : contribution (entryAt current.pt index) (totals (entryAt current.pt index)) =
      contribution (entryAt pt index) (total index) := by
    rw [contribution_congr fixedIndex, filling.self.2, recursion]
  have visited := finish_visited index current
  have effect (target : Nat) : totals (entryAt (current.finish index).pt target) =
      totals (entryAt current.pt target) +
        if (entryAt pt index).parent = target ∧ target ≠ index then
          contribution (entryAt pt index) (total index)
        else 0 := by
    rw [← given]
    exact finish_totals linked bound filling.fixed target
  have parentOut {target : Nat} (path : Within (childrenList pt) index target) :
      ¬((entryAt pt index).parent = target ∧ target ≠ index) := by
    rintro ⟨parentEq, different⟩
    have child : ¬selfParented (entryAt pt index) := by
      intro own
      have atSelf := linked.rootParent index bound own
      omega
    have targetBound : target < pt.length := linked.within_lt bound path
    have edge : index ∈ childrenList pt target :=
      linked.mem_childrenList.mpr ⟨targetBound, bound, child, parentEq⟩
    exact acyclic (Relation.TransGen.tail' path edge)
  constructor
  · rw [finish_fixed]
    exact filling.fixed
  · intro target path
    rw [entryAt_congr (·.visited) visited target, effect, if_neg (parentOut path), add_zero]
    rcases within_iff.mp path with same | ⟨child, member, further⟩
    · subst target
      exact ⟨filling.self.1, by rw [filling.self.2, recursion]⟩
    · exact filling.inside child member target further
  · intro target out
    have notSelf : target ≠ index := fun same => out (same ▸ Relation.ReflTransGen.refl)
    obtain ⟨visitedSame, valueSame⟩ := filling.outside target notSelf
      (fun child member path => out (within_iff.mpr (Or.inr ⟨child, member, path⟩)))
    rw [entryAt_congr (·.visited) visited target, effect, valueSame]
    exact ⟨visitedSame, by simp [notSelf]⟩
  · intro target path
    rw [finish_processed]
    exact filling.processed target (within_iff.mp path)
  · intro target out
    rw [finish_processed]
    exact filling.skipped target (fun same => out (same ▸ Relation.ReflTransGen.refl))
      (fun child member path => out (within_iff.mpr (Or.inr ⟨child, member, path⟩)))

theorem fillProcessTree_filled (linked : Linked pt pt.length) (fuel index : Nat)
    (before after : FillState) (same : before.pt.map fixedPart = pt.map fixedPart)
    (bound : index < pt.length)
    (acyclic : ∀ target, Within (childrenList pt) index target →
      ¬Below (childrenList pt) target target)
    (fresh : ∀ target, Within (childrenList pt) index target →
      (entryAt before.pt target).visited = false)
    (recursion : ∀ target, Within (childrenList pt) index target →
      total target = totals (startFill (entryAt pt target)) +
        ((childrenList pt target).map fun child =>
          contribution (entryAt pt child) (total child)).sum)
    (finished : fillProcessTree fuel index before = some after) :
    Filled pt total index before after := by
  induction fuel generalizing index before after with
  | zero => simp [fillProcessTree] at finished
  | succ fuel ih =>
      have here : Within (childrenList pt) index index := Relation.ReflTransGen.refl
      simp only [fillProcessTree, fresh index here, Bool.false_eq_true, if_false] at finished
      obtain ⟨filled, reached, last⟩ := Option.map_eq_some_iff.mp finished
      have started : Filling pt total index [] before (before.start index) :=
        filling_start same bound
      have countEq : (entryAt (before.start index).pt index).children.count =
          (childrenList pt index).length := by
        have fixedIndex := entryAt_congr fixedPart started.fixed index
        rw [show (entryAt (before.start index).pt index).children.count =
          (entryAt pt index).children.count from congrArg (·.children.count) fixedIndex]
        exact linked.counts index bound
      have round (k : Nat) (current next : FillState) (within : k < (childrenList pt index).length)
          (filling : Filling pt total index ((childrenList pt index).take k) before current)
          (found : fillProcessTree fuel ((entryAt current.pt index).children.list.getD k 0) current =
            some next) :
          Filling pt total index ((childrenList pt index).take (k + 1)) before next := by
        have listSame : (entryAt current.pt index).children.list = childrenList pt index :=
          congrArg (·.children.list) (entryAt_congr fixedPart filling.fixed index)
        have childEq : (entryAt current.pt index).children.list.getD k 0 =
            (childrenList pt index)[k] := by
          simp [listSame, within]
        rw [childEq] at found
        have member : (childrenList pt index)[k] ∈ childrenList pt index := List.getElem_mem within
        have descend {target : Nat} (path : Within (childrenList pt) (childrenList pt index)[k] target) :
            Within (childrenList pt) index target := Relation.ReflTransGen.head member path
        have apart : ∀ other ∈ (childrenList pt index).take k,
            other ∈ childrenList pt index ∧ other ≠ (childrenList pt index)[k] := fun other known =>
          ⟨List.mem_of_mem_take known, ne_of_mem_take (linked.isForest.distinct index) within known⟩
        have unmarked : ∀ target, Within (childrenList pt) (childrenList pt index)[k] target →
            (entryAt current.pt target).visited = false := by
          intro target path
          rw [filling.untouched linked member (acyclic index here) apart path]
          exact fresh target (descend path)
        have childFilled := ih (childrenList pt index)[k] current next filling.fixed
          (linked.mem_childrenList.mp member).2.1
          (fun target path => acyclic target (descend path)) unmarked
          (fun target path => recursion target (descend path)) found
        have extended := filling.child linked member (acyclic index here) apart childFilled
        rwa [List.take_add_one, List.getElem?_eq_getElem within]
      have stage := Loop.foldlM_range_partial
        (fun k current => Filling pt total index ((childrenList pt index).take k) before current) _
        (fun k current next inside => round k current next (by omega)) started reached
      rw [countEq, List.take_length] at stage
      rw [← last]
      exact stage.finish linked bound (acyclic index here) (recursion index here)

end Call

end SimpleProcessMonitor
