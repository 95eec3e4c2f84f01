import SimpleProcessMonitor.InitChecks

/-!
`ProcessTree_init` for all processes: the totals of the filled tree as sums over
descendants, and which entries the fill reaches.
-/

namespace SimpleProcessMonitor

open Forest

noncomputable def descendantsOf (pt : Entries) (index : Nat) : Finset Nat :=
  descendants (childrenList pt) (Finset.range pt.length) index

def ownTotals (entry : ProcessTreeT) : Totals :=
  (1, max entry.threads.self 1, max entry.cpu.usage.self 0, entry.memory.usage,
    entry.filedescriptors.usage)

def baseTotals (entry : ProcessTreeT) : Totals :=
  (0, 0, 0, entry.memory.usage, entry.filedescriptors.usage)

noncomputable def subtreeTotals (pt : Entries) (index : Nat) : Totals :=
  baseTotals (entryAt pt index) + ∑ target ∈ descendantsOf pt index, ownTotals (entryAt pt target)

theorem startFill_totals (entry : ProcessTreeT) :
    totals (startFill entry) = baseTotals entry + (entry.children.count, 0, 0, 0, 0) := by
  simp [totals, startFill, baseTotals]

theorem sum_ownTotals (pt : Entries) (nodes : Finset Nat) :
    ∑ target ∈ nodes, ownTotals (entryAt pt target) =
      (nodes.card, ∑ target ∈ nodes, max (entryAt pt target).threads.self 1,
        ∑ target ∈ nodes, max (entryAt pt target).cpu.usage.self 0,
        ∑ target ∈ nodes, (entryAt pt target).memory.usage,
        ∑ target ∈ nodes, (entryAt pt target).filedescriptors.usage) := by
  simp only [Prod.ext_iff, Prod.fst_sum, Prod.snd_sum, ownTotals]
  simp

/-- A child passes on its own part and that of its descendants; it is itself counted in
its parent's `children.count`. -/
theorem contribution_subtreeTotals (pt : Entries) (child : Nat) :
    contribution (entryAt pt child) (subtreeTotals pt child) + (1, 0, 0, 0, 0) =
      ownTotals (entryAt pt child) +
        ∑ target ∈ descendantsOf pt child, ownTotals (entryAt pt target) := by
  have threads : 0 ≤ ∑ target ∈ descendantsOf pt child, max (entryAt pt target).threads.self 1 :=
    Finset.sum_nonneg fun target _ => le_trans (by omega) (le_max_right _ 1)
  have cpu : 0 ≤ ∑ target ∈ descendantsOf pt child, max (entryAt pt target).cpu.usage.self 0 :=
    Finset.sum_nonneg fun target _ => le_max_right _ 0
  have positive {value : ℤ} (bound : 0 ≤ value) : (if value > 0 then value else 0) = value := by
    split <;> omega
  rw [subtreeTotals, sum_ownTotals]
  simp only [baseTotals, contribution, ownTotals, Prod.mk_add_mk, zero_add, add_zero,
    positive threads, ge_iff_le, if_pos cpu]
  refine Prod.ext (Nat.add_comm _ _) (Prod.ext ?_ (Prod.ext ?_ rfl))
  · simp only [max_def]
    split <;> split <;> omega
  · simp only [max_def]
    split <;> split <;> first | rfl | (exfalso; linarith) | linarith

theorem subtreeTotals_recursion {pt : Entries} (linked : Linked pt pt.length) {index : Nat}
    (inside : index < pt.length) (acyclic : ¬Below (childrenList pt) index index) :
    subtreeTotals pt index = totals (startFill (entryAt pt index)) +
      ((childrenList pt index).map fun child =>
        contribution (entryAt pt child) (subtreeTotals pt child)).sum := by
  have closed : ∀ parent child, child ∈ childrenList pt parent → child ∈ Finset.range pt.length :=
    fun _ _ member => Finset.mem_range.mpr (linked.mem_childrenList.mp member).2.1
  have units : ∀ children : List Nat,
      (children.map fun child => ownTotals (entryAt pt child) +
        ∑ target ∈ descendantsOf pt child, ownTotals (entryAt pt target)).sum =
      ((children.length, 0, 0, 0, 0) : Totals) + (children.map fun child =>
        contribution (entryAt pt child) (subtreeTotals pt child)).sum := by
    intro children
    induction children with
    | nil =>
        simp only [List.map_nil, List.sum_nil, List.length_nil, add_zero]
        rfl
    | cons child rest ih =>
        rw [List.map_cons, List.sum_cons, ih, ← contribution_subtreeTotals, List.map_cons,
          List.sum_cons]
        have count : (((child :: rest).length, 0, 0, 0, 0) : Totals) =
            ((rest.length, 0, 0, 0, 0) : Totals) + (1, 0, 0, 0, 0) := by
          simp
        rw [count]
        abel
  have countEq : (entryAt pt index).children.count = (childrenList pt index).length :=
    linked.counts index inside
  rw [startFill_totals, countEq, add_assoc, ← units, subtreeTotals, descendantsOf,
    sum_descendants linked.isForest closed acyclic]
  rfl

/-! The array that the fill returns. -/

theorem childrenList_congr {first second : Entries}
    (same : first.map fixedPart = second.map fixedPart) :
    childrenList first = childrenList second := by
  funext index
  exact congrArg (·.children.list) (entryAt_congr fixedPart same index)

theorem descendantsOf_congr {first second : Entries}
    (same : first.map fixedPart = second.map fixedPart) (index : Nat) :
    descendantsOf first index = descendantsOf second index := by
  have lengths : first.length = second.length := by simpa using congrArg List.length same
  rw [descendantsOf, descendantsOf, childrenList_congr same, lengths]

theorem subtreeTotals_congr {first second : Entries}
    (same : first.map fixedPart = second.map fixedPart) (index : Nat) :
    subtreeTotals first index = subtreeTotals second index := by
  have own (target : Nat) : ownTotals (entryAt first target) = ownTotals (entryAt second target) := by
    have fixed := congrArg ownTotals (entryAt_congr fixedPart same target)
    exact fixed
  have base : baseTotals (entryAt first index) = baseTotals (entryAt second index) := by
    have fixed := congrArg baseTotals (entryAt_congr fixedPart same index)
    exact fixed
  simp only [subtreeTotals, descendantsOf_congr same, own, base]

structure Aggregated (pt : Entries) (index : Nat) : Prop where
  children : (entryAt pt index).children.total = (descendantsOf pt index).card
  threads : (entryAt pt index).threads.children =
    ∑ target ∈ descendantsOf pt index, max (entryAt pt target).threads.self 1
  cpu : (entryAt pt index).cpu.usage.children =
    ∑ target ∈ descendantsOf pt index, max (entryAt pt target).cpu.usage.self 0
  memory : (entryAt pt index).memory.usageTotal = (entryAt pt index).memory.usage +
    ∑ target ∈ descendantsOf pt index, (entryAt pt target).memory.usage
  filedescriptors : (entryAt pt index).filedescriptors.usageTotal =
    (entryAt pt index).filedescriptors.usage +
      ∑ target ∈ descendantsOf pt index, (entryAt pt target).filedescriptors.usage

theorem aggregated_of_totals {pt : Entries} {index : Nat}
    (exact : totals (entryAt pt index) = subtreeTotals pt index) : Aggregated pt index := by
  rw [subtreeTotals, sum_ownTotals] at exact
  simp only [totals, baseTotals, Prod.mk_add_mk, zero_add, Prod.mk.injEq] at exact
  obtain ⟨children, threads, cpu, memory, filedescriptors⟩ := exact
  exact ⟨children, threads, cpu, memory, filedescriptors⟩

theorem fillTree_filled {pt : Entries} (linked : Linked pt pt.length) {root : Nat}
    (inside : root < pt.length) (own : selfParented (entryAt pt root))
    (fresh : ∀ index, (entryAt pt index).visited = false) :
    Filled pt (subtreeTotals pt) root { pt := pt } (fillTree pt root) := by
  have acyclic {target : Nat} (path : Within (childrenList pt) root target) :
      ¬Below (childrenList pt) target target := linked.root_acyclic own path
  apply fillProcessTree_filled linked (pt.length + 1) root
  · rfl
  · exact inside
  · exact fun target path => acyclic path
  · exact fun target _ => fresh target
  · intro target path
    exact subtreeTotals_recursion linked (linked.within_lt inside path) (acyclic path)
  · exact (Option.some_get (fillProcessTree_isSome pt root)).symm

theorem Filled.visited_iff {pt : Entries} {total : Nat → Totals} {root : Nat} {after : FillState}
    (filled : Filled pt total root { pt := pt } after)
    (fresh : ∀ index, (entryAt pt index).visited = false) (index : Nat) :
    (entryAt after.pt index).visited = true ↔ Within (childrenList pt) root index := by
  constructor
  · intro marked
    by_contra outside
    rw [(filled.outside index outside).1, fresh index] at marked
    cases marked
  · exact fun path => (filled.inside index path).1

theorem Filled.untouched {pt : Entries} {total : Nat → Totals} {root : Nat} {after : FillState}
    (linked : Linked pt pt.length) (inside : root < pt.length)
    (own : selfParented (entryAt pt root)) (filled : Filled pt total root { pt := pt } after)
    {target : Nat} (outside : ¬Within (childrenList pt) root target) :
    entryAt after.pt target = entryAt pt target := by
  have fixed := entryAt_congr fixedPart filled.fixed target
  obtain ⟨visited, same⟩ := filled.outside target outside
  have notParent : ¬(entryAt pt root).parent = target := by
    rw [linked.rootParent root inside own]
    intro equal
    exact outside (by
      have atRoot : root = target := by omega
      exact atRoot ▸ Relation.ReflTransGen.refl)
  rw [if_neg notParent, add_zero] at same
  exact entry_ext fixed visited same

/-- A successful call fills exactly the tree of the chosen root, each entry once, and
leaves the rest of the built array alone, whatever cycles it has. -/
theorem initRecords_filled (info : FixedSystemInfo) (time : ℚ) (ref : TreeRef)
    (records : List ProcessRecord) (distinct : (records.map (·.pid)).Nodup)
    (success : 0 < (initRecords info allProcesses time ref records).2) :
    let built := snapshot info allProcesses time ref records
    ∃ (root : Nat) (filled : FillState) (tree : TreeArray),
      root < built.pt.length ∧ built.root = root ∧
      fillProcessTree (built.pt.length + 1) root { pt := built.pt } = some filled ∧
      (initRecords info allProcesses time ref records).1.ppTree = some tree ∧
      tree.entries = filled.pt ∧
      (∀ index, Within (childrenList tree.entries) root index →
        filled.processed.count index = 1 ∧ (entryAt tree.entries index).visited = true ∧
        Aggregated tree.entries index) ∧
      ∀ index, ¬Within (childrenList tree.entries) root index →
        filled.processed.count index = 0 ∧ entryAt tree.entries index = entryAt built.pt index := by
  intro built
  obtain ⟨_, root, inside, rootEq, own, _, treeEq⟩ := initRecords_success info time ref records success
  have linked : Linked built.pt built.pt.length := snapshot_linked info time ref records distinct
  have filled := fillTree_filled linked inside own (snapshot_unvisited info allProcesses time ref records)
  have lists := childrenList_congr filled.fixed
  refine ⟨root, fillTree built.pt root, ⟨built.block, (fillTree built.pt root).pt⟩, inside, rootEq,
    (Option.some_get (fillProcessTree_isSome built.pt root)).symm, treeEq, rfl, ?_, ?_⟩
  · intro index path
    rw [lists] at path
    obtain ⟨visited, exact⟩ := filled.inside index path
    rw [← subtreeTotals_congr filled.fixed] at exact
    exact ⟨filled.processed index path, visited, aggregated_of_totals exact⟩
  · intro index outside
    rw [lists] at outside
    exact ⟨filled.skipped index outside, filled.untouched linked inside own outside⟩

theorem initRecords_filled_sample :
    0 < (initRecords ⟨4096, 100, 4⟩ allProcesses 50 {} sampleRecords).2 ∧
    ∃ (root : Nat) (filled : FillState) (tree : TreeArray),
      root < (snapshot ⟨4096, 100, 4⟩ allProcesses 50 {} sampleRecords).pt.length ∧
      (snapshot ⟨4096, 100, 4⟩ allProcesses 50 {} sampleRecords).root = root ∧
      fillProcessTree ((snapshot ⟨4096, 100, 4⟩ allProcesses 50 {} sampleRecords).pt.length + 1) root
        { pt := (snapshot ⟨4096, 100, 4⟩ allProcesses 50 {} sampleRecords).pt } = some filled ∧
      (initRecords ⟨4096, 100, 4⟩ allProcesses 50 {} sampleRecords).1.ppTree = some tree ∧
      tree.entries = filled.pt ∧
      (∀ index, Within (childrenList tree.entries) root index →
        filled.processed.count index = 1 ∧ (entryAt tree.entries index).visited = true ∧
        Aggregated tree.entries index) ∧
      ∀ index, ¬Within (childrenList tree.entries) root index →
        filled.processed.count index = 0 ∧ entryAt tree.entries index =
          entryAt (snapshot ⟨4096, 100, 4⟩ allProcesses 50 {} sampleRecords).pt index :=
  ⟨by decide +kernel,
    initRecords_filled ⟨4096, 100, 4⟩ 50 {} sampleRecords (by decide) (by decide +kernel)⟩

end SimpleProcessMonitor
