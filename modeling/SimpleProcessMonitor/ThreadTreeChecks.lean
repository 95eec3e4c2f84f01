import SimpleProcessMonitor.HistoryChecks

/-!
The tree of the threads of one process: no children, no totals, and usages that are percentages.
-/

namespace SimpleProcessMonitor

open CString

def withoutUsage (entry : ProcessTreeT) : ProcessTreeT :=
  { entry with cpu.usage.self := 0 }

/-- The only link of a call for one process: an entry that is its own parent. -/
def ownParent (index : Nat) (entry : ProcessTreeT) : ProcessTreeT :=
  if selfParented entry then setParent index entry else entry

theorem ownParent_fields (index : Nat) (entry : ProcessTreeT) :
    (ownParent index entry).parent = (if selfParented entry then (index : Int) else entry.parent) ∧
      (selfParented (ownParent index entry) ↔ selfParented entry) ∧
      (ownParent index entry).children = entry.children ∧
      (ownParent index entry).visited = entry.visited ∧
      totals (ownParent index entry) = totals entry := by
  unfold ownParent
  split
  · exact ⟨rfl, Iff.rfl, rfl, rfl, rfl⟩
  · exact ⟨rfl, Iff.rfl, rfl, rfl, rfl⟩

theorem withoutUsage_ownParent (index : Nat) (entry : ProcessTreeT) :
    withoutUsage (ownParent index entry) = ownParent index (withoutUsage entry) := by
  by_cases own : selfParented entry
  · have same : selfParented (withoutUsage entry) := own
    rw [ownParent, ownParent, if_pos own, if_pos same]
    rfl
  · have same : ¬selfParented (withoutUsage entry) := own
    rw [ownParent, ownParent, if_neg own, if_neg same]

theorem linkProcess_threads {pid : Int} (threads : pid ≠ allProcesses) {index : Nat}
    {state : BuildState} (inside : index < state.pt.length) (position : Nat) :
    entryAt (linkProcess pid index state).pt position =
      if index = position then ownParent index (entryAt state.pt index)
      else entryAt state.pt position := by
  simp only [linkProcess, if_neg threads, ownParent]
  split
  · rw [entryAt_modify]
    by_cases same : index = position
    · subst same
      rw [if_pos ⟨rfl, inside⟩, if_pos rfl]
    · rw [if_neg fun both => same both.1, if_neg same]
  · split
    · rename_i same
      rw [same]
    · rfl

theorem buildStep_threads {input : BuildInput} (threads : input.pid ≠ allProcesses) {index : Nat}
    {state : BuildState} (inside : index < state.pt.length) (position : Nat) :
    withoutUsage (entryAt (buildStep input index state).pt position) =
      if index = position then ownParent index (withoutUsage (entryAt state.pt index))
      else withoutUsage (entryAt state.pt position) := by
  have within : index < (state.pt.modify index
      (setUsageSelf (usageSelf input (entryAt state.pt index)))).length := by simpa using inside
  rw [buildStep, linkProcess_threads threads within]
  by_cases same : index = position
  · rw [if_pos same, if_pos same, withoutUsage_ownParent, entryAt_modify_self _ inside]
    rfl
  · rw [if_neg same, if_neg same, entryAt_modify_ne _ _ same]

/-- The entries before `index` have their link, those from there on are as the scan stored them. -/
def Unlinked (base : Entries) (index : Nat) (state : BuildState) : Prop :=
  ∀ position, withoutUsage (entryAt state.pt position) =
    if position < index then ownParent position (withoutUsage (entryAt base position))
    else withoutUsage (entryAt base position)

theorem Unlinked.step {input : BuildInput} (threads : input.pid ≠ allProcesses) {base : Entries}
    {index : Nat} {state : BuildState} (inside : index < state.pt.length)
    (unlinked : Unlinked base index state) :
    Unlinked base (index + 1) (buildStep input index state) := by
  intro position
  rw [buildStep_threads threads inside, unlinked index, unlinked position, if_neg (lt_irrefl index)]
  by_cases same : index = position
  · subst same
    rw [if_pos rfl, if_pos (Nat.lt_succ_self index)]
  · have before : position < index + 1 ↔ position < index := by omega
    rw [if_neg same]
    simp only [before]

theorem snapshot_unlinked {pid : Int} (threads : pid ≠ allProcesses) (info : FixedSystemInfo)
    (time : ℚ) (ref : TreeRef) (records : List ProcessRecord) :
    Unlinked (scannedEntries records time) (snapshot info pid time ref records).pt.length
      (snapshot info pid time ref records) :=
  buildTree_rule (buildInput info pid time ref) (Unlinked (scannedEntries records time))
    (fun position => (if_neg (Nat.not_lt_zero position)).symm)
    fun _ _ inside unlinked => unlinked.step threads inside

theorem scannedEntries_flat (records : List ProcessRecord) (time : ℚ) (index : Nat) :
    (entryAt (scannedEntries records time) index).parent = 0 ∧
      (entryAt (scannedEntries records time) index).children = {} ∧
      (entryAt (scannedEntries records time) index).visited = false ∧
      totals (entryAt (scannedEntries records time) index) = (0, 0, 0, 0, 0) := by
  let view (entry : ProcessTreeT) := (entry.parent, entry.children, entry.visited, totals entry)
  have views : (scannedEntries records time).map view =
      (records.map fun _ => ({} : ProcessTreeT)).map view := by
    rw [scannedEntries, map_modify_same view (setTime time) (fun _ => rfl), List.map_map,
      List.map_map]
    rfl
  have blank : entryAt (records.map fun _ => ({} : ProcessTreeT)) index = {} := by
    rw [entryAt, List.map_const', List.getD_eq_getElem?_getD, List.getElem?_replicate]
    split <;> rfl
  have same := entryAt_congr view views index
  rw [blank] at same
  exact ⟨congrArg (·.1) same, congrArg (·.2.1) same, congrArg (·.2.2.1) same,
    congrArg (·.2.2.2) same⟩

theorem InitCall.init_unlinked {sys : Sys} {call : InitCall} (threads : call.pid ≠ allProcesses)
    (succeeds : call.Succeeds sys) (ref : TreeRef) {index : Nat}
    (inside : index < (visibleEntries (call.init sys ref).1).length) :
    withoutUsage (entryAt (visibleEntries (call.init sys ref).1) index) = ownParent index
      (withoutUsage (entryAt (scannedEntries (call.records sys) (call.now sys)) index)) := by
  rw [InitCall.init_records succeeds ref, initRecords, if_neg succeeds.1, if_neg threads] at inside ⊢
  exact (snapshot_unlinked threads sys.info (call.now sys) ref (call.records sys) index).trans
    (if_pos inside)

/-- A percentage, or -1 for a thread without a baseline. -/
def Percentage (usage : ℚ) : Prop :=
  usage = -1 ∨ 0 ≤ usage ∧ usage ≤ 100

theorem usageSince_percentage {pid : Int} (threads : pid ≠ allProcesses) (info : FixedSystemInfo)
    (timeDelta cpuTime : ℚ) (old : Option ℚ) :
    Percentage (usageSince info pid timeDelta cpuTime old) := by
  cases old with
  | none => exact Or.inl rfl
  | some old =>
      simp only [usageSince, if_neg threads]
      split
      · rename_i moved
        obtain ⟨-, forward, -, ordered⟩ := moved
        have positive : 0 ≤ 100 * (cpuTime - old) / timeDelta := by
          have difference : 0 ≤ cpuTime - old := sub_nonneg.mpr ordered
          positivity
        right
        split
        · rename_i small
          exact ⟨positive, small.le⟩
        · norm_num
      · exact Or.inl rfl

/-- After a call for one process the array holds the records of its scan, in order and without
children, with usages that are percentages, whatever the calls before were for. The parent of an
entry is the entry itself, or 0 as in the zeroed array. -/
theorem threads_flat (sys : Sys) (done : List InitCall) (call : InitCall)
    (threads : call.pid ≠ allProcesses) :
    let after := visibleEntries (afterInits sys (done ++ [call]))
    after.map measured = call.records sys ∧
      ∀ index < after.length,
        (entryAt after index).parent =
          (if selfParented (entryAt after index) then (index : Int) else 0) ∧
        (entryAt after index).children = {} ∧ (entryAt after index).visited = false ∧
        totals (entryAt after index) = (0, 0, 0, 0, 0) ∧
        Percentage (entryAt after index).cpu.usage.self := by
  intro after
  have afterEq : after = visibleEntries (call.init sys (afterInits sys done)).1 :=
    congrArg visibleEntries (afterInits_concat sys done call)
  rw [afterEq]
  rcases call.init_view sys (afterInits sys done) with ⟨succeeds, _, views, _, usages⟩ |
    ⟨fails, _, empty⟩
  · have none : call.missing sys = [] := if_neg threads
    rw [none, List.map_nil, List.append_nil] at views
    refine ⟨views, fun index inside => ?_⟩
    have stored := InitCall.init_unlinked threads succeeds (afterInits sys done) inside
    obtain ⟨parent, children, visited, sums⟩ :=
      scannedEntries_flat (call.records sys) (call.now sys) index
    have usage := usages index inside
    rw [oldptree_lookup _ (afterInits_sized sys done)] at usage
    obtain ⟨ownIndex, own, sameChildren, sameVisited, sameTotals⟩ := ownParent_fields index
      (withoutUsage (entryAt (scannedEntries (call.records sys) (call.now sys)) index))
    rw [← stored] at ownIndex own sameChildren sameVisited sameTotals
    refine ⟨?_, sameChildren.trans children, sameVisited.trans visited, sameTotals.trans sums, ?_⟩
    · exact ownIndex.trans (if_congr own.symm rfl parent)
    · rw [usage]
      exact usageSince_percentage threads _ _ _ _
  · have none : call.records sys = [] := by
      by_contra nonempty
      exact fails ⟨nonempty, fun all => absurd all threads⟩
    rw [empty, none]
    exact ⟨rfl, fun _ inside => absurd inside (Nat.not_lt_zero _)⟩

/-- The second thread is shown as its own parent. -/
def sampleThreads : InitCall where
  pid := 1
  scan := sampleScan "cpu 1 2 3 4 5 6 7 8" [{ initProcess with path := bytes "/proc/1/task/1" },
    sampleProcess "/proc/1/task/6"
      "6 (sh) S 6 1 1 0 -1 4 1 2 3 4 12 34 5 6 20 0 3 0 25 90 2 0 1 1 0 0 0 0 6 4 1 0 0 0 17 0",
    sampleProcess "/proc/1/task/9"
      "9 (sh) S 0 1 1 0 -1 4 1 2 3 4 12 34 5 6 20 0 3 0 25 90 2 0 1 1 0 0 0 0 6 4 1 0 0 0 17 0"]

theorem threads_flat_sample :
    (visibleEntries (afterInits sampleSys ([⟨allProcesses, sampleScan "cpu 1 2 3 4" [initProcess]⟩] ++
      [sampleThreads]))).map (·.parent) = [0, 1, 0] := by
  have flat := threads_flat sampleSys [⟨allProcesses, sampleScan "cpu 1 2 3 4" [initProcess]⟩]
    sampleThreads (by decide)
  generalize visibleEntries (afterInits sampleSys _) = after at flat ⊢
  obtain ⟨views, entries⟩ := flat
  have links : (sampleThreads.records sampleSys).map recordLink = [(1, 0), (6, 6), (9, 0)] := by
    decide +kernel
  rw [← views, List.map_map] at links
  obtain ⟨first, second, third, rfl⟩ : ∃ first second third, after = [first, second, third] :=
    List.length_eq_three.mp (by simpa using congrArg List.length links)
  simp only [List.map_cons, List.map_nil, Function.comp_apply, List.cons.injEq, recordLink, measured,
    Prod.mk.injEq, and_true] at links
  have firstParent := (entries 0 (by decide : 0 < 3)).1
  have secondParent := (entries 1 (by decide : 1 < 3)).1
  have thirdParent := (entries 2 (by decide : 2 < 3)).1
  simp [entryAt, selfParented, links] at firstParent secondParent thirdParent
  simp [firstParent, secondParent, thirdParent]

end SimpleProcessMonitor
