import SimpleProcessMonitor.ProcessTreeCore

/-!
The build loop and the recursive fill end on every input, so both have total versions:
`buildTree` and `fillTree`.
-/

namespace SimpleProcessMonitor

open Allocation

theorem map_modify_same {α β : Type} (view : α → β) (change : α → α)
    (same : ∀ item, view (change item) = view item) (items : List α) (index : Nat) :
    (items.modify index change).map view = items.map view := by
  apply List.ext_getElem?
  intro position
  simp only [List.getElem?_map, List.getElem?_modify]
  cases items[position]? with
  | none => rfl
  | some item =>
      simp only [Option.map_eq_map, Option.map_some, Option.some.injEq]
      split
      · exact same item
      · rfl

theorem entryAt_of_le {pt : Entries} {index : Nat} (outside : pt.length ≤ index) :
    entryAt pt index = {} := by
  simp [entryAt, outside]

theorem entryAt_mem {pt : Entries} {index : Nat} (inside : index < pt.length) :
    entryAt pt index ∈ pt := by
  simp [entryAt, inside]

theorem mem_iff_entryAt {pt : Entries} {entry : ProcessTreeT} :
    entry ∈ pt ↔ ∃ index < pt.length, entryAt pt index = entry := by
  rw [List.mem_iff_getElem]
  constructor
  · rintro ⟨index, inside, found⟩
    exact ⟨index, inside, by simpa [entryAt, inside] using found⟩
  · rintro ⟨index, inside, found⟩
    exact ⟨index, inside, by simpa [entryAt, inside] using found⟩

theorem entryAt_modify (pt : Entries) (change : ProcessTreeT → ProcessTreeT)
    (index position : Nat) :
    entryAt (pt.modify index change) position =
      if index = position ∧ position < pt.length then change (entryAt pt position)
      else entryAt pt position := by
  by_cases inside : position < pt.length
  · by_cases same : index = position
    · simp [entryAt, inside, same]
    · simp [entryAt, same]
  · simp [entryAt, inside]

theorem entryAt_modify_ne (pt : Entries) (change : ProcessTreeT → ProcessTreeT)
    {index position : Nat} (different : index ≠ position) :
    entryAt (pt.modify index change) position = entryAt pt position := by
  simp [entryAt_modify, different]

theorem entryAt_modify_self {pt : Entries} (change : ProcessTreeT → ProcessTreeT)
    {index : Nat} (inside : index < pt.length) :
    entryAt (pt.modify index change) index = change (entryAt pt index) := by
  simp [entryAt_modify, inside]

theorem entryAt_congr {β : Type} (view : ProcessTreeT → β) {first second : Entries}
    (same : first.map view = second.map view) (index : Nat) :
    view (entryAt first index) = view (entryAt second index) := by
  have lengths : first.length = second.length := by simpa using congrArg List.length same
  by_cases inside : index < first.length
  · have bound : index < second.length := by omega
    have value := congrArg (fun items => items[index]?) same
    simpa [entryAt, inside, bound] using value
  · rw [entryAt_of_le (by omega), entryAt_of_le (by omega)]

theorem getElem?_map_entryAt {β : Type} (view : ProcessTreeT → β) {pt : Entries} {index : Nat}
    (inside : index < pt.length) : (pt.map view)[index]? = some (view (entryAt pt index)) := by
  simp [entryAt, inside]

/-- A part of an entry, read off the front of a view of the whole array. -/
theorem entryAt_view {β : Type} (view : ProcessTreeT → β) {pt : Entries} {front back : List β}
    (split : pt.map view = front ++ back) {index : Nat} {value : β}
    (found : front[index]? = some value) : view (entryAt pt index) = value := by
  obtain ⟨bound, _⟩ := List.getElem?_eq_some_iff.mp found
  have lengths := congrArg List.length split
  rw [List.length_map, List.length_append] at lengths
  have whole := getElem?_map_entryAt view (show index < pt.length by omega)
  rw [split, List.getElem?_append_left bound, found] at whole
  exact (Option.some.inj whole).symm

theorem entryAt_view_back {β : Type} (view : ProcessTreeT → β) {pt : Entries} {front back : List β}
    (split : pt.map view = front ++ back) {index : Nat} (inside : index < pt.length)
    (outside : front.length ≤ index) : view (entryAt pt index) ∈ back := by
  have whole := getElem?_map_entryAt view inside
  rw [split, List.getElem?_append_right outside] at whole
  exact List.mem_of_getElem? whole

theorem entryAt_append_left {first second : Entries} {index : Nat}
    (inside : index < first.length) :
    entryAt (first ++ second) index = entryAt first index := by
  simp [entryAt, List.getElem?_append_left inside]

theorem entryAt_append_self (pt : Entries) (entry : ProcessTreeT) :
    entryAt (pt ++ [entry]) pt.length = entry := by
  simp [entryAt]

theorem findProcess_congr {first second : Entries}
    (same : first.map (·.pid) = second.map (·.pid)) (pid size : Int) :
    findProcess pid first size = findProcess pid second size := by
  have lookup (pt : Entries) : (pt.take size.toNat).findIdx? (fun entry => entry.pid == pid) =
      ((pt.map (·.pid)).take size.toNat).findIdx? (· == pid) := by
    rw [← List.map_take, List.findIdx?_map]
    rfl
  simp only [findProcess, lookup, same]

theorem findProcess_cases (pid : Int) (pt : Entries) :
    (findProcess pid pt pt.length = -1 ∧ ∀ entry ∈ pt, entry.pid ≠ pid) ∨
      ∃ index < pt.length, findProcess pid pt pt.length = index ∧ (entryAt pt index).pid = pid := by
  cases found : pt.findIdx? (fun entry => entry.pid == pid) with
  | none =>
      left
      have absent := List.findIdx?_eq_none_iff.mp found
      refine ⟨by simp [findProcess, found], ?_⟩
      intro entry member
      simpa using absent entry member
  | some index =>
      right
      obtain ⟨inside, matched, _⟩ := List.findIdx?_eq_some_iff_getElem.mp found
      exact ⟨index, inside, by simp [findProcess, found], by simpa [entryAt, inside] using matched⟩

/-! The part of an entry that the build loop never writes. -/

def core (entry : ProcessTreeT) : ProcessTreeT :=
  { entry with cpu.usage.self := 0, parent := 0, children := {} }

@[simp] theorem core_setUsageSelf (value : ℚ) (entry : ProcessTreeT) :
    core (setUsageSelf value entry) = core entry := rfl

@[simp] theorem core_setParent (parent : Int) (entry : ProcessTreeT) :
    core (setParent parent entry) = core entry := rfl

@[simp] theorem core_addChild (child : Nat) (entry : ProcessTreeT) :
    core (addChild child entry) = core entry := rfl

@[simp] theorem map_core_setParent (parent : Int) (pt : Entries) (index : Nat) :
    (pt.modify index (setParent parent)).map core = pt.map core :=
  map_modify_same core _ (core_setParent parent) pt index

@[simp] theorem map_core_addChild (child : Nat) (pt : Entries) (index : Nat) :
    (pt.modify index (addChild child)).map core = pt.map core :=
  map_modify_same core _ (core_addChild child) pt index

@[simp] theorem core_virtualEntry (pid : Int) : core (virtualEntry pid) = virtualEntry pid := rfl

@[simp] theorem selfParented_core (entry : ProcessTreeT) :
    selfParented (core entry) ↔ selfParented entry := Iff.rfl

theorem map_core_pid {first second : Entries} (same : first.map core = second.map core) :
    first.map (·.pid) = second.map (·.pid) := by
  have pids := congrArg (List.map (·.pid)) same
  rw [List.map_map, List.map_map] at pids
  exact pids

theorem selfParented_virtualEntry (pid : Int) : selfParented (virtualEntry pid) := Or.inl rfl

def newParent (pid : Int) (pt : Entries) (index : Nat) : List Int :=
  let entry := entryAt pt index
  if pid = allProcesses ∧ ¬selfParented entry ∧ ∀ other ∈ pt, other.pid ≠ entry.ppid then
    [entry.ppid]
  else []

theorem newParent_congr {first second : Entries} (same : first.map core = second.map core)
    (pid : Int) (index : Nat) : newParent pid first index = newParent pid second index := by
  have entrySame : core (entryAt first index) = core (entryAt second index) :=
    entryAt_congr core same index
  have pids : first.map (·.pid) = second.map (·.pid) := map_core_pid same
  have ppidSame : (entryAt first index).ppid = (entryAt second index).ppid :=
    congrArg (·.ppid) entrySame
  have kind : selfParented (entryAt first index) ↔ selfParented (entryAt second index) := by
    rw [← selfParented_core, entrySame, selfParented_core]
  have absent (wanted : Int) : (∀ other ∈ first, other.pid ≠ wanted) ↔
      ∀ other ∈ second, other.pid ≠ wanted := by
    have mapped : (∀ pid ∈ first.map (·.pid), pid ≠ wanted) ↔
        ∀ pid ∈ second.map (·.pid), pid ≠ wanted := by rw [pids]
    simpa using mapped
  simp only [newParent, ppidSame, kind, absent]

theorem buildStep_core (input : BuildInput) (index : Nat) (state : BuildState) :
    (buildStep input index state).pt.map core =
      state.pt.map core ++ (newParent input.pid state.pt index).map virtualEntry := by
  let self := usageSelf input (entryAt state.pt index)
  let marked := state.pt.modify index (setUsageSelf self)
  have markedCore : marked.map core = state.pt.map core :=
    map_modify_same core (setUsageSelf self) (core_setUsageSelf self) _ _
  rw [← newParent_congr markedCore, ← markedCore]
  change (linkProcess input.pid index { state with pt := marked }).pt.map core = _
  simp only [linkProcess, newParent]
  by_cases own : selfParented (entryAt marked index)
  · simp [own]
  · by_cases all : input.pid = allProcesses
    · rcases findProcess_cases (entryAt marked index).ppid marked with ⟨missing, absent⟩ | found
      · simp only [own, all, missing, if_true, if_false, not_false_eq_true, true_and, if_pos absent]
        simp [connect, addVirtual]
      · obtain ⟨parent, inside, found, pidEq⟩ := found
        have present : ¬∀ other ∈ marked, other.pid ≠ (entryAt marked index).ppid :=
          fun absent => absent _ (entryAt_mem inside) pidEq
        have isIndex : ¬(parent : Int) = -1 := by omega
        simp only [own, all, found, isIndex, present, and_false, if_true, if_false]
        simp [connect]
    · simp [own, all]

theorem buildStep_length (input : BuildInput) (index : Nat) (state : BuildState) :
    (buildStep input index state).pt.length =
      state.pt.length + (newParent input.pid state.pt index).length := by
  simpa using congrArg List.length (buildStep_core input index state)

theorem buildStep_kept (input : BuildInput) (index : Nat) (state : BuildState) {position : Nat}
    (inside : position < state.pt.length) :
    core (entryAt (buildStep input index state).pt position) = core (entryAt state.pt position) :=
  entryAt_view core (buildStep_core input index state) (getElem?_map_entryAt core inside)

def unlinked (pt : Entries) (index : Nat) : Nat :=
  ((pt.map core).drop index).countP fun entry => ¬selfParented entry

theorem buildStep_potential (input : BuildInput) (index : Nat) (state : BuildState)
    (inside : index < state.pt.length) :
    (buildStep input index state).pt.length + unlinked (buildStep input index state).pt (index + 1) ≤
      state.pt.length + unlinked state.pt index := by
  have noneVirtual : ((newParent input.pid state.pt index).map virtualEntry).countP
      (fun entry => ¬selfParented entry) = 0 := by
    rw [List.countP_eq_zero]
    intro entry member
    obtain ⟨pid, _, same⟩ := List.mem_map.mp member
    simp [← same, selfParented_virtualEntry]
  have rest : (state.pt.map core).drop index =
      core (entryAt state.pt index) :: (state.pt.map core).drop (index + 1) := by
    rw [List.drop_eq_getElem_cons (by simpa using inside)]
    simp [entryAt, inside]
  have step : unlinked (buildStep input index state).pt (index + 1) =
      ((state.pt.map core).drop (index + 1)).countP (fun entry => ¬selfParented entry) := by
    rw [unlinked, buildStep_core, List.drop_append_of_le_length (by rw [List.length_map]; omega),
      List.countP_append, noneVirtual, Nat.add_zero]
  rw [buildStep_length, step, unlinked, rest, List.countP_cons]
  by_cases own : selfParented (entryAt state.pt index)
  · simp [newParent, own]
  · simp only [newParent, own, not_false_eq_true, true_and, selfParented_core, decide_true, if_true]
    split
    · simp only [List.length_singleton]
      omega
    · simp only [List.length_nil]
      omega

theorem buildLoop_isSome (input : BuildInput) (state : BuildState) :
    (buildLoop input (2 * state.pt.length + 1) 0 state).isSome = true := by
  have unlinkedLe : unlinked state.pt 0 ≤ state.pt.length := by
    simpa [unlinked] using List.countP_le_length (l := state.pt.map core)
      (p := fun entry => decide ¬selfParented entry)
  apply Loop.forBelow_isSome (fun index current =>
    current.pt.length + unlinked current.pt index ≤ 2 * state.pt.length) (2 * state.pt.length)
  · intro index current bounded
    omega
  · intro index current inside bounded
    exact le_trans (buildStep_potential input index current inside) bounded
  · omega
  · omega
  · omega

/-- The state after the build loop of `ProcessTree_init`. -/
def buildTree (input : BuildInput) (state : BuildState) : BuildState :=
  (buildLoop input (2 * state.pt.length + 1) 0 state).get (buildLoop_isSome input state)

theorem buildTree_rule (input : BuildInput) (motive : Nat → BuildState → Prop)
    {state : BuildState} (start : motive 0 state)
    (step : ∀ index state, index < state.pt.length → motive index state →
      motive (index + 1) (buildStep input index state)) :
    motive (buildTree input state).pt.length (buildTree input state) := by
  refine Loop.forBelow_rule motive ?_ step start (Nat.zero_le _)
    (Option.some_get (buildLoop_isSome input state)).symm
  intro current index
  rw [buildStep_length]
  exact Nat.le_add_right _ _

/-! The fill: every call that does something marks one more entry. -/

def unvisited (pt : Entries) : Nat :=
  (pt.map (·.visited)).count false

theorem finish_visited (index : Nat) (state : FillState) :
    (state.finish index).pt.map (·.visited) = state.pt.map (·.visited) := by
  simp only [FillState.finish]
  split
  · exact map_modify_same _ (addTotals (entryAt state.pt index)) (fun _ => rfl) _ _
  · rfl

theorem start_visited {index : Nat} {state : FillState} (inside : index < state.pt.length)
    (fresh : (entryAt state.pt index).visited = false) :
    unvisited (state.start index).pt + 1 = unvisited state.pt := by
  have bound : index < (state.pt.map (·.visited)).length := by simpa using inside
  have value : (state.pt.map (·.visited))[index] = false := by
    simpa [entryAt, inside] using fresh
  have marked : (state.start index).pt.map (·.visited) =
      (state.pt.map (·.visited)).set index true := by
    apply List.ext_getElem?
    intro position
    simp only [FillState.start, List.getElem?_map, List.getElem?_modify, List.getElem?_set]
    by_cases same : index = position
    · subst position
      simp [inside, startFill]
    · simp [same]
  have positive : 0 < (state.pt.map (·.visited)).count false :=
    List.count_pos_iff.mpr (value ▸ List.getElem_mem bound)
  simp only [unvisited, marked, List.count_set bound, value]
  simp
  omega

/-- The recursion of `_fillProcessTree` ends on every array, cyclic ones included, and
never clears a mark. -/
theorem fillProcessTree_terminates (fuel index : Nat) (state : FillState)
    (enough : unvisited state.pt < fuel) :
    ∃ final, fillProcessTree fuel index state = some final ∧
      unvisited final.pt ≤ unvisited state.pt := by
  induction fuel generalizing index state with
  | zero => omega
  | succ fuel ih =>
      simp only [fillProcessTree]
      by_cases seen : (entryAt state.pt index).visited = true
      · exact ⟨state, by simp [seen], Nat.le_refl _⟩
      · have fresh : (entryAt state.pt index).visited = false := by simpa using seen
        simp only [fresh, Bool.false_eq_true, if_false]
        by_cases inside : index < state.pt.length
        · have fewer := start_visited inside fresh
          have rounds : ∃ filled, (List.range (entryAt (state.start index).pt index).children.count).foldlM
              (fun current i => fillProcessTree fuel
                ((entryAt current.pt index).children.list.getD i 0) current)
              (state.start index) = some filled ∧
              unvisited filled.pt ≤ unvisited (state.start index).pt := by
            apply Loop.foldlM_range_rule
              (fun _ (current : FillState) =>
                unvisited current.pt ≤ unvisited (state.start index).pt)
            · intro i current _ bounded
              obtain ⟨next, found, less⟩ :=
                ih ((entryAt current.pt index).children.list.getD i 0) current (by omega)
              exact ⟨next, found, le_trans less bounded⟩
            · exact Nat.le_refl _
          obtain ⟨filled, reached, bounded⟩ := rounds
          refine ⟨filled.finish index, by rw [reached, Option.map_some], ?_⟩
          rw [unvisited, finish_visited]
          exact le_trans bounded (by omega)
        · have unchanged : (state.start index).pt = state.pt := by
            simp [FillState.start, List.modify_eq_self (Nat.not_lt.mp inside)]
          have childless : (entryAt state.pt index).children.count = 0 := by
            rw [entryAt_of_le (Nat.not_lt.mp inside)]
          refine ⟨(state.start index).finish index, by simp [unchanged, childless], ?_⟩
          rw [unvisited, finish_visited, unchanged]
          exact Nat.le_refl _

theorem fillProcessTree_isSome (pt : Entries) (root : Nat) :
    (fillProcessTree (pt.length + 1) root { pt := pt }).isSome = true := by
  have few : unvisited pt ≤ pt.length := by
    simpa [unvisited] using List.count_le_length (a := false) (l := pt.map (·.visited))
  obtain ⟨final, reached, _⟩ :=
    fillProcessTree_terminates (pt.length + 1) root { pt := pt } (Nat.lt_succ_of_le few)
  simp [reached]

def fillTree (pt : Entries) (root : Nat) : FillState :=
  (fillProcessTree (pt.length + 1) root { pt := pt }).get (fillProcessTree_isSome pt root)

end SimpleProcessMonitor
