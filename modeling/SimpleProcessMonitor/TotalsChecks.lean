import SimpleProcessMonitor.HistoryChecks
import SimpleProcessMonitor.KernelChecks
import SimpleProcessMonitor.RootChecks

/-!
The totals at the root of the tree: of a snapshot with one root they account for every task,
each counted once.
-/

namespace SimpleProcessMonitor

open Forest Relation

/-- What an entry adds to the totals above it and not to its own. -/
def apart (entry : ProcessTreeT) : Totals :=
  (1, max entry.threads.self 1, max entry.cpu.usage.self 0, 0, 0)

theorem baseTotals_apart (entry : ProcessTreeT) : baseTotals entry + apart entry = ownTotals entry := by
  simp [baseTotals, apart, ownTotals]

theorem sum_entries (pt : Entries) :
    ∑ index ∈ Finset.range pt.length, ownTotals (entryAt pt index) = (pt.map ownTotals).sum := by
  have listed : ∑ index ∈ Finset.range pt.length, ownTotals (entryAt pt index) =
      ((List.range pt.length).map fun index => ownTotals (entryAt pt index)).sum := by
    rw [Finset.sum_eq_multiset_sum, Finset.range_val, Multiset.range, Multiset.map_coe,
      Multiset.sum_coe]
  have entries := congrArg (List.map ownTotals) (map_entryAt_range pt)
  rw [List.map_map] at entries
  rw [listed, ← entries]
  rfl

section Root

variable (info : FixedSystemInfo) (time : ℚ) (ref : TreeRef) (records : List ProcessRecord)

theorem initRecords_whole (distinct : (records.map (·.pid)).Nodup)
    (success : 0 < (initRecords info allProcesses time ref records).2)
    (acyclic : ∀ pid, ¬TransGen (ParentLink (records.map recordLink)) pid pid)
    (one : (rootPids (records.map recordLink)).length = 1) :
    ∃ root ∈ visibleEntries (initRecords info allProcesses time ref records).1,
      rootPids (records.map recordLink) = [root.pid] ∧
      totals root + apart root =
        ((visibleEntries (initRecords info allProcesses time ref records).1).map ownTotals).sum := by
  obtain ⟨_, root, inside, _, own, _, treeEq⟩ := initRecords_success info time ref records success
  have linked := snapshot_linked info time ref records distinct
  have fresh := snapshot_unvisited info allProcesses time ref records
  have filled := fillTree_filled linked inside own fresh
  have roots (pid : Int) := mem_rootPids info time ref records pid
  have above (index : Nat) := exists_root_above info time ref records distinct acyclic index
  have entriesEq : visibleEntries (initRecords info allProcesses time ref records).1 =
      (fillTree (snapshot info allProcesses time ref records).pt root).pt := by
    simp [visibleEntries, treeEq]
  rw [entriesEq]
  generalize (snapshot info allProcesses time ref records).pt = pt at *
  have lengths : (fillTree pt root).pt.length = pt.length := by
    simpa using congrArg List.length filled.fixed
  obtain ⟨only, onlyEq⟩ := List.length_eq_one_iff.mp one
  have single : ∀ index < pt.length, selfParented (entryAt pt index) → (entryAt pt index).pid = only := by
    intro index bound top
    have member := (roots (entryAt pt index).pid).mpr ⟨index, bound, top, rfl⟩
    rwa [onlyEq, List.mem_singleton] at member
  have reached : ∀ index ∈ Finset.range pt.length, Within (childrenList pt) root index := by
    intro index bound
    obtain ⟨top, topBound, topOwn, path⟩ := above index (Finset.mem_range.mp bound)
    have samePid := (single top topBound topOwn).trans (single root inside own).symm
    exact linked.pid_injective topBound inside samePid ▸ path
  have whole := sum_whole (Finset.mem_range.mpr inside) (linked.root_acyclic own ReflTransGen.refl)
    reached fun index => ownTotals (entryAt pt index)
  have exact := (filled.inside root ReflTransGen.refl).2
  have fixed := entryAt_congr fixedPart filled.fixed
  refine ⟨entryAt (fillTree pt root).pt root, entryAt_mem (lengths ▸ inside), ?_, ?_⟩
  · have pid : (entryAt (fillTree pt root).pt root).pid = (entryAt pt root).pid :=
      congrArg (·.pid) (fixed root)
    rw [onlyEq, pid, single root inside own]
  · have same : (fillTree pt root).pt.map ownTotals = pt.map ownTotals := by
      have parts := congrArg (List.map ownTotals) filled.fixed
      rw [List.map_map, List.map_map] at parts
      exact parts
    have sameApart : apart (entryAt (fillTree pt root).pt root) = apart (entryAt pt root) := by
      have parts := congrArg apart (fixed root)
      exact parts
    rw [exact, sameApart, same, ← sum_entries, ← whole, subtreeTotals, add_right_comm,
      baseTotals_apart]
    rfl

end Root

/-! The same in terms of what the kernel shows. -/

def LiveTask.totals (task : LiveTask) (info : ProcessOrThreadInfo) : Totals :=
  (1, max info.threadNum 1, max info.cpuUsage 0, info.ramUsage, (task.image.descriptors.getD 0 : Nat))

def virtualTotals : Totals :=
  (1, 1, 0, 0, 0)

theorem usageSince_idle (info : FixedSystemInfo) (pid : Int) (timeDelta : ℚ) (old : Option ℚ) :
    max (usageSince info pid timeDelta 0 old) 0 = 0 := by
  cases old with
  | none => norm_num [usageSince]
  | some old =>
      simp only [usageSince]
      split
      · rename_i moved
        have idle : old = 0 := le_antisymm moved.2.2.2 moved.2.2.1
        simp [idle]
      · norm_num

/-- A virtual entry has nothing of its own: the usage of one that stood for a process in the
tree before is 0 or unknown. -/
theorem InitCall.totals_virtual (sys : Sys) (call : InitCall) {ref : TreeRef} (sized : Sized ref)
    {index : Nat} (behind : (call.records sys).length ≤ index)
    (inside : index < (visibleEntries (call.init sys ref).1).length) :
    ownTotals (entryAt (visibleEntries (call.init sys ref).1) index) = virtualTotals := by
  rcases call.init_view sys ref with ⟨_, _, views, _, usages⟩ | ⟨_, _, empty⟩
  · have usage := usages index inside
    obtain ⟨pid, -, same⟩ := List.mem_map.mp (entryAt_view_back measured views inside behind)
    have threads := congrArg (·.threadsSelf) same
    have memory := congrArg (·.memoryUsage) same
    have files := congrArg (·.filedescriptorsUsage) same
    have cpuTime := congrArg (·.cpuTime) same
    simp only [measured, virtualRecord] at threads memory files cpuTime
    rw [oldptree_lookup ref sized, ← cpuTime] at usage
    rw [ownTotals, usage, usageSince_idle, ← threads, ← memory, ← files]
    rfl
  · simp [empty] at inside

section Presented

variable {sys : Sys} {call : Outside} {snapshot : Snapshot} {previous : Option Snapshot}
  {ref : TreeRef}

theorem Snapshot.Presented.totals_task (presented : snapshot.Presented .all call)
    (hz : 0 < sys.info.hz) (cpus : 0 < sys.info.cpuCount) (fits : sys.info.cpuCount < 2 ^ 31)
    (rooted : snapshot.Rooted .all) (follows : Follows sys .all previous ref)
    (continues : ∀ last ∈ previous, snapshot.Continues .all last) {index : Nat}
    {task : LiveTask} (listed : snapshot.living[index]? = some task) :
    ownTotals (entryAt (visibleEntries
      (processTreeInit sys allProcesses (call.scan allProcesses) ref).1) index) =
        task.totals (snapshot.info sys .all previous task) := by
  have info := presented.processInfo_entry hz cpus fits rooted follows continues listed
  have views := presented.views rooted sys ref
  have own : measured (entryAt (visibleEntries
      (processTreeInit sys allProcesses (call.scan allProcesses) ref).1) index) =
        task.record sys call.starttime .all :=
    entryAt_view measured views (by rw [List.getElem?_map, listed]; rfl)
  have files := congrArg (·.filedescriptorsUsage) own
  simp only [measured] at files
  rw [← info, LiveTask.totals, ownTotals, files]
  rfl

theorem Snapshot.Presented.totals_eq (presented : snapshot.Presented .all call)
    (hz : 0 < sys.info.hz) (cpus : 0 < sys.info.cpuCount) (fits : sys.info.cpuCount < 2 ^ 31)
    (rooted : snapshot.Rooted .all) (follows : Follows sys .all previous ref)
    (continues : ∀ last ∈ previous, snapshot.Continues .all last) :
    (visibleEntries (processTreeInit sys allProcesses (call.scan allProcesses) ref).1).map ownTotals =
      (snapshot.living.map fun task => task.totals (snapshot.info sys .all previous task)) ++
        List.replicate (missingParents snapshot.links).length virtualTotals := by
  have lengths := congrArg List.length (presented.views rooted sys ref)
  simp only [List.length_map, List.length_append] at lengths
  have recordsLength : ((initCall .all call).records sys).length = snapshot.living.length := by
    rw [presented.records, List.length_map]
  have whole : (virtualPids ScanMode.all.pid snapshot.links).length =
      (missingParents snapshot.links).length := rfl
  rw [whole] at lengths
  apply List.ext_getElem
  · rw [List.length_map, List.length_append, List.length_map, List.length_replicate]
    exact lengths
  intro index inTree inTotals
  rw [List.length_map] at inTree
  have entry : (visibleEntries (processTreeInit sys allProcesses (call.scan allProcesses) ref).1)[index] =
      entryAt (visibleEntries (processTreeInit sys allProcesses (call.scan allProcesses) ref).1) index := by
    simp [entryAt, inTree]
  rw [List.getElem_map, entry]
  by_cases task : index < snapshot.living.length
  · rw [presented.totals_task hz cpus fits rooted follows continues (List.getElem?_eq_getElem task),
      List.getElem_append_left (by rwa [List.length_map]), List.getElem_map]
  · rw [List.getElem_append_right (by rw [List.length_map]; omega), List.getElem_replicate]
    exact (initCall .all call).totals_virtual sys follows.sized (by omega) inTree

end Presented

theorem sum_totals (tasks : List LiveTask) (info : LiveTask → ProcessOrThreadInfo) :
    (tasks.map fun task => task.totals (info task)).sum =
      (tasks.length, (tasks.map fun task => max (info task).threadNum 1).sum,
        (tasks.map fun task => max (info task).cpuUsage 0).sum,
        (tasks.map fun task => (info task).ramUsage).sum,
        (tasks.map fun task => ((task.image.descriptors.getD 0 : Nat) : Int)).sum) := by
  induction tasks with
  | nil => rfl
  | cons task tasks ih =>
      rw [List.map_cons, List.sum_cons, ih, LiveTask.totals]
      simp [add_comm]

/-- The totals of the root, with its own part, are those of the whole snapshot. -/
structure Snapshot.Accounted (sys : Sys) (previous : Option Snapshot) (snapshot : Snapshot)
    (root : ProcessTreeT) : Prop where
  pid : rootPids snapshot.links = [root.pid]
  children : root.children.total + 1 =
    snapshot.living.length + (missingParents snapshot.links).length
  threads : root.threads.children + max root.threads.self 1 =
    (snapshot.living.map fun task => max task.image.line.numThreads 1).sum +
      (missingParents snapshot.links).length
  cpu : root.cpu.usage.children + max root.cpu.usage.self 0 =
    (snapshot.living.map fun task => max (snapshot.usage sys .all previous task) 0).sum
  memory : root.memory.usageTotal =
    (snapshot.living.map fun task => (snapshot.info sys .all previous task).ramUsage).sum
  filedescriptors : root.filedescriptors.usageTotal =
    (snapshot.living.map fun task => ((task.image.descriptors.getD 0 : Nat) : Int)).sum

section Accounts

variable {sys : Sys} {call : Outside} {snapshot : Snapshot} {previous : Option Snapshot}
  {ref : TreeRef}

theorem Snapshot.Presented.succeeds_of_root (presented : snapshot.Presented .all call) (sys : Sys)
    (one : (rootPids snapshot.links).length = 1) : (initCall .all call).Succeeds sys := by
  have links : ((initCall .all call).records sys).map recordLink = snapshot.links := by
    rw [presented.records, Snapshot.links_records]
  refine ⟨fun none => ?_, fun _ none => ?_⟩
  · rw [← links, none] at one
    cases one
  · rw [links] at none
    rw [none] at one
    cases one

theorem Snapshot.Presented.accounted (presented : snapshot.Presented .all call)
    (hz : 0 < sys.info.hz) (cpus : 0 < sys.info.cpuCount) (fits : sys.info.cpuCount < 2 ^ 31)
    (follows : Follows sys .all previous ref)
    (continues : ∀ last ∈ previous, snapshot.Continues .all last)
    (acyclic : ∀ pid, ¬TransGen (ParentLink snapshot.links) pid pid)
    (one : (rootPids snapshot.links).length = 1) :
    ∃ root ∈ visibleEntries ((initCall .all call).init sys ref).1,
      snapshot.Accounted sys previous root := by
  have succeeds := presented.succeeds_of_root sys one
  have rooted := presented.succeeds_iff.mp succeeds
  have links : ((initCall .all call).records sys).map recordLink = snapshot.links := by
    rw [presented.records, Snapshot.links_records]
  have distinct : (((initCall .all call).records sys).map (·.pid)).Nodup := by
    rw [presented.records, List.map_map]
    exact snapshot.living_distinct
  have positive : 0 < ((initCall .all call).init sys ref).2 := by
    rcases presented.init_cases ref with ⟨_, positive, _⟩ | ⟨rootless, _⟩
    · exact positive
    · exact absurd rooted rootless
  have totalsEq : (visibleEntries ((initCall .all call).init sys ref).1).map ownTotals = _ :=
    presented.totals_eq hz cpus fits rooted follows continues
  rw [← links] at acyclic one
  rw [(initCall .all call).init_records succeeds ref] at positive totalsEq ⊢
  obtain ⟨root, member, pid, whole⟩ :=
    initRecords_whole sys.info _ ref _ distinct positive acyclic one
  have parts := totalsEq ▸ whole
  rw [List.sum_append, sum_totals, List.sum_replicate] at parts
  simp only [totals, apart, virtualTotals, Prod.mk_add_mk, Prod.smul_mk, nsmul_zero, add_zero,
    Prod.mk.injEq] at parts
  obtain ⟨children, threads, cpu, memory, files⟩ := parts
  refine ⟨root, member, links ▸ pid, ?_, ?_, cpu, memory, files⟩
  · simpa using children
  · simpa [Snapshot.info] using threads

end Accounts

end SimpleProcessMonitor
