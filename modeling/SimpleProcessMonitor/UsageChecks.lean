import SimpleProcessMonitor.RootChecks

/-!
The CPU usage of a process over a run of `ProcessTree_init` calls: which entry of the
previous array serves as its baseline.
-/

namespace SimpleProcessMonitor

/-! What the build loop computes for an entry, in terms of the previous array. -/

def usageSince (info : FixedSystemInfo) (pid : Int) (timeDelta cpuTime : ℚ) : Option ℚ → ℚ
  | none => -1
  | some old =>
      if 0 < info.cpuCount ∧ 0 < timeDelta ∧ 0 ≤ old ∧ old ≤ cpuTime then
        let self := 100 * (cpuTime - old) / timeDelta
        if pid = allProcesses then self else if self < 100 then self else 100
      else -1

def cpuTimeOf (records : List ProcessRecord) (pid : Int) : Option ℚ :=
  (records.find? fun record => record.pid == pid).map (·.cpuTime)

theorem findProcess_find (pid : Int) (pt : Entries) :
    (findProcess pid pt pt.length = -1 ∧ pt.find? (fun entry => entry.pid == pid) = none) ∨
      ∃ index : Nat, findProcess pid pt pt.length = index ∧
        pt.find? (fun entry => entry.pid == pid) = some (entryAt pt index) := by
  cases found : pt.findIdx? (fun entry => entry.pid == pid) with
  | none =>
      refine Or.inl ⟨by simp [findProcess, found], ?_⟩
      rw [List.find?_eq_none]
      simpa using List.findIdx?_eq_none_iff.mp found
  | some index =>
      obtain ⟨inside, _, _⟩ := List.findIdx?_eq_some_iff_getElem.mp found
      refine Or.inr ⟨index, by simp [findProcess, found], ?_⟩
      have position := List.findIdx?_eq_some_iff_findIdx_eq.mp found
      rw [List.find?_eq_getElem?_findIdx, position.2]
      simp [entryAt, inside]

theorem oldptree_lookup (ref : TreeRef) (sized : Sized ref) (info : FixedSystemInfo) (pid : Int)
    (time : ℚ) (entry : ProcessTreeT) :
    usageSelf (buildInput info pid time ref) entry =
      usageSince info pid (time - (entryAt (visibleEntries ref) 0).time) entry.cpu.time
        (cpuTimeOf ((visibleEntries ref).map measured) entry.pid) := by
  cases tree : ref.ppTree with
  | none =>
      simp [usageSelf, buildInput, oldptree, tree, visibleEntries, cpuTimeOf, usageSince]
  | some old =>
      have size : ref.pTreeSize = old.entries.length := by
        simpa [Sized, visibleEntries, tree] using sized
      have times : (old.entries.map freeParts).map (fun entry => (entry.cpu.time, entry.time)) =
          old.entries.map (fun entry => (entry.cpu.time, entry.time)) := by
        rw [List.map_map]
        rfl
      have timeOf (index : Nat) := entryAt_congr (fun entry => (entry.cpu.time, entry.time)) times index
      have pids : (old.entries.map freeParts).map (·.pid) = old.entries.map (·.pid) := by
        rw [List.map_map]
        rfl
      have sameSearch := findProcess_congr pids entry.pid old.entries.length
      have looked : cpuTimeOf (old.entries.map measured) entry.pid =
          (old.entries.find? fun other => other.pid == entry.pid).map (·.cpu.time) := by
        rw [cpuTimeOf, List.find?_map, Option.map_map]
        rfl
      have start : timePrev ref = (entryAt old.entries 0).time := by
        simp only [timePrev, oldptree, tree, Option.map_some]
        exact congrArg Prod.snd (timeOf 0)
      simp only [visibleEntries, tree, looked]
      simp only [usageSelf, buildInput, oldptree, tree, Option.map_some, size, sameSearch, start]
      rcases findProcess_find entry.pid old.entries with ⟨missing, none⟩ | ⟨index, found, some⟩
      · simp [missing, none, usageSince]
      · have isIndex : ¬(index : Int) = -1 := by omega
        have oldTime := congrArg Prod.fst (timeOf index)
        simp only at oldTime
        simp only [found, isIndex, if_false, some, Option.map_some, usageSince, Int.toNat_natCast,
          oldTime]

/-! One call. -/

structure InitCall where
  pid : Int
  scan : Scan

namespace InitCall

variable (sys : Sys) (call : InitCall)

def records : List ProcessRecord :=
  (initprocesstreeSysdep sys call.scan call.pid).getD []

def now : ℚ :=
  getNowSingleCoreCpuTime sys.info call.scan.procStat call.scan.stack

def missing : List Int :=
  virtualPids call.pid ((call.records sys).map recordLink)

def init (ref : TreeRef) : TreeRef × Int :=
  processTreeInit sys call.pid call.scan ref

/-- The scan found a process, and a root if it needs one. -/
def Succeeds : Prop :=
  call.records sys ≠ [] ∧
    (call.pid = allProcesses → rootPids ((call.records sys).map recordLink) ≠ [])

end InitCall

theorem snapshot_time (info : FixedSystemInfo) (pid : Int) (time : ℚ) (ref : TreeRef)
    (records : List ProcessRecord) (nonempty : records ≠ []) :
    (entryAt (snapshot info pid time ref records).pt 0).time = time := by
  have times := congrArg (List.map (·.time)) (snapshot_core info pid time ref records)
  rw [List.map_append, List.map_map, List.map_map, List.map_map] at times
  have scanned : 0 < (scannedEntries records time).length := by
    rw [scannedEntries_length]
    exact List.length_pos_iff.mpr nonempty
  have first := entryAt_view _ times (getElem?_map_entryAt _ scanned)
  have whole : (entryAt (snapshot info pid time ref records).pt 0).time =
      (entryAt (scannedEntries records time) 0).time := first
  rw [whole, scannedEntries, entryAt_modify_self _ (by simpa [scannedEntries] using scanned)]
  rfl

theorem InitCall.init_view (sys : Sys) (call : InitCall) (ref : TreeRef) :
    (call.Succeeds sys ∧ 0 < (call.init sys ref).2 ∧
      (visibleEntries (call.init sys ref).1).map measured =
        call.records sys ++ (call.missing sys).map virtualRecord ∧
      (entryAt (visibleEntries (call.init sys ref).1) 0).time = call.now sys ∧
      ∀ index < (visibleEntries (call.init sys ref).1).length,
        (entryAt (visibleEntries (call.init sys ref).1) index).cpu.usage.self =
          usageSelf (buildInput sys.info call.pid (call.now sys) ref)
            (entryAt (visibleEntries (call.init sys ref).1) index)) ∨
    (¬call.Succeeds sys ∧ (call.init sys ref).2 < 0 ∧ visibleEntries (call.init sys ref).1 = []) := by
  have unrooted (records : List ProcessRecord) :=
    snapshot_unrooted sys.info (call.now sys) ref records
  rcases processTreeInit_cases sys call.pid call.scan ref with ⟨noTree, failed, _, none⟩ |
    ⟨records, tree, read, nonempty, rooted, treeEq, fixed, _, count⟩
  · right
    refine ⟨?_, by rw [InitCall.init, failed]; omega, none⟩
    rintro ⟨nonempty, hasRoot⟩
    cases read : initprocesstreeSysdep sys call.scan call.pid with
    | none => exact nonempty (by simp [InitCall.records, read])
    | some records =>
        have recordsEq : call.records sys = records := by simp [InitCall.records, read]
        obtain ⟨all, unset⟩ := noTree records read (recordsEq ▸ nonempty)
        rw [all] at unset
        exact hasRoot all (recordsEq ▸ (unrooted records).mp unset)
  · left
    have recordsEq : call.records sys = records := by simp [InitCall.records, read]
    have shown : visibleEntries (call.init sys ref).1 = tree.entries := by
      rw [visibleEntries, InitCall.init, treeEq]
    have succeeds : call.Succeeds sys := by
      refine ⟨recordsEq ▸ nonempty, fun all noRoot => rooted all ?_⟩
      rw [all]
      exact (unrooted records).mpr (recordsEq ▸ noRoot)
    have positive := snapshot_nonempty sys.info call.pid (call.now sys) ref records nonempty
    have lengths : tree.entries.length = _ := fixed_length fixed
    have time := snapshot_time sys.info call.pid (call.now sys) ref records nonempty
    have part (index : Nat) := entryAt_congr fixedPart fixed index
    rw [shown]
    refine ⟨succeeds, ?_, ?_, ?_, ?_⟩
    · rw [InitCall.init, count, lengths]
      exact_mod_cast positive
    · rw [InitCall.missing, recordsEq]
      exact fixed_measured fixed
    · exact (congrArg (·.time) (part 0)).trans time
    · intro index inside
      have usage := snapshot_usage sys.info call.pid (call.now sys) ref records index
        (lengths ▸ inside)
      have usageSame := congrArg (·.cpu.usage.self) (part index)
      have computedSame := congrArg
        (usageSelf (buildInput sys.info call.pid (call.now sys) ref)) (part index)
      exact (usageSame.trans usage).trans computedSame.symm

theorem InitCall.init_sized (sys : Sys) (call : InitCall) (ref : TreeRef) :
    Sized (call.init sys ref).1 :=
  processTreeInit_sized sys call.pid call.scan ref

theorem storeRecord_cpuTime (sys : Sys) (hz : 0 < sys.info.hz) (starttime pid : Int)
    (files : ProcFiles) (proc : ProcT) : 0 ≤ (storeRecord sys starttime pid files proc).cpuTime := by
  have ticks : 0 ≤ (proc.data.itemUtime + proc.data.itemStime) % 2 ^ 64 :=
    Int.emod_nonneg _ (by decide)
  have counted : (0 : ℚ) ≤ ((proc.data.itemUtime + proc.data.itemStime) % 2 ^ 64 : Int) := by
    exact_mod_cast ticks
  exact mul_nonneg (div_nonneg counted (le_of_lt hz)) (by norm_num)

theorem scanEntries_cpuTime (sys : Sys) (hz : 0 < sys.info.hz) (starttime pid : Int)
    (entries : List GlobEntry) (proc : ProcT) :
    ∀ record ∈ scanEntries sys starttime pid entries proc, 0 ≤ record.cpuTime := by
  induction entries generalizing proc with
  | nil => simp [scanEntries]
  | cons entry rest ih =>
      intro record member
      simp only [scanEntries, List.mem_append, Option.mem_toList] at member
      rcases member with first | later
      · simp only [scanEntry] at first
        split at first
        · cases first
        · simp only [Option.some.injEq] at first
          subst record
          exact storeRecord_cpuTime sys hz _ _ _ _
      · exact ih _ record later

theorem InitCall.records_cpuTime (sys : Sys) (hz : 0 < sys.info.hz) (call : InitCall) :
    ∀ record ∈ call.records sys, 0 ≤ record.cpuTime := by
  intro record member
  simp only [InitCall.records, initprocesstreeSysdep] at member
  cases globbed : call.scan.glob with
  | none => simp [globbed] at member
  | some entries =>
      rw [globbed] at member
      exact scanEntries_cpuTime sys hz _ _ _ _ record member

/-! Where the search for a baseline ends. -/

theorem cpuTimeOf_append (first second : List ProcessRecord) (pid : Int) :
    cpuTimeOf (first ++ second) pid = (cpuTimeOf first pid).or (cpuTimeOf second pid) := by
  rw [cpuTimeOf, List.find?_append, Option.map_or]
  rfl

theorem cpuTimeOf_virtual (pids : List Int) (pid : Int) :
    cpuTimeOf (pids.map virtualRecord) pid = if pid ∈ pids then some 0 else none := by
  induction pids with
  | nil => rfl
  | cons other pids ih =>
      by_cases same : other = pid
      · simp [cpuTimeOf, virtualRecord, same]
      · have different : pid ≠ other := fun equal => same equal.symm
        simp only [List.mem_cons, different, false_or, ← ih]
        simp [cpuTimeOf, virtualRecord, same]

theorem cpuTimeOf_mem {records : List ProcessRecord} {pid : Int} {time : ℚ}
    (found : cpuTimeOf records pid = some time) :
    ∃ record ∈ records, record.pid = pid ∧ record.cpuTime = time := by
  obtain ⟨record, search, timeEq⟩ := Option.map_eq_some_iff.mp found
  refine ⟨record, List.mem_of_find?_eq_some search, ?_, timeEq⟩
  simpa using List.find?_some search

theorem InitCall.missing_notMem {sys : Sys} {call : InitCall} {pid : Int}
    (synthesised : pid ∈ call.missing sys) : ∀ record ∈ call.records sys, record.pid ≠ pid := by
  intro record member same
  by_cases all : call.pid = allProcesses
  · rw [InitCall.missing, virtualPids, if_pos all] at synthesised
    apply missingParents_notMem synthesised
    rw [List.map_map]
    exact List.mem_map.mpr ⟨record, member, same⟩
  · simp [InitCall.missing, virtualPids, all] at synthesised

/-! The run. -/

def afterInits (sys : Sys) (calls : List InitCall) : TreeRef :=
  Loop.run (fun ref call => (call.init sys ref).1) {} calls

/-- The threads of one process are adjusted to at most 100. -/
def capped (pid : Int) (value : ℚ) : ℚ :=
  if pid = allProcesses then value else min value 100

def usageBetween (sys : Sys) (last call : InitCall) (record : ProcessRecord) : ℚ :=
  match cpuTimeOf (last.records sys) record.pid with
  | none => -1
  | some old =>
      if last.now sys < call.now sys ∧ old ≤ record.cpuTime then
        capped call.pid (100 * (record.cpuTime - old) / (call.now sys - last.now sys))
      else -1

/-- The usage to publish in a call that follows the calls `done`. -/
def expectedUsage (sys : Sys) (done : List InitCall) (call : InitCall) (record : ProcessRecord) :
    ℚ :=
  match done.getLast? with
  | none => -1
  | some last =>
      if 0 < (last.init sys (afterInits sys done.dropLast)).2 then usageBetween sys last call record
      else -1

/-- Every process that the call reads gets that usage. -/
def UsageCorrect (sys : Sys) (done : List InitCall) (call : InitCall) : Prop :=
  0 < (call.init sys (afterInits sys done)).2 →
    ∀ index record, (call.records sys)[index]? = some record →
      (entryAt (visibleEntries (afterInits sys (done ++ [call]))) index).cpu.usage.self =
        expectedUsage sys done call record

/-- No process of the call was only synthesised by the call before, unless the clock did not
move. -/
def NoVirtualBaseline (sys : Sys) (done : List InitCall) (call : InitCall) : Prop :=
  call.Succeeds sys → ∀ last ∈ done.getLast?, last.Succeeds sys → last.now sys < call.now sys →
    ∀ record ∈ call.records sys, record.pid ∉ last.missing sys

theorem usageSince_eq (info : FixedSystemInfo) (cpus : 0 < info.cpuCount) (pid : Int)
    {start time old cpuTime : ℚ} (positive : 0 ≤ old) :
    usageSince info pid (time - start) cpuTime (some old) =
      if start < time ∧ old ≤ cpuTime then capped pid (100 * (cpuTime - old) / (time - start))
      else -1 := by
  simp only [usageSince, cpus, positive, sub_pos, true_and, capped, min_def]
  congr 1
  split
  · rfl
  · split <;> split <;> first | rfl | linarith

theorem usageSince_iff (sys : Sys) (hz : 0 < sys.info.hz) (cpus : 0 < sys.info.cpuCount)
    (last call : InitCall) {record : ProcessRecord} (member : record ∈ call.records sys) :
    usageSince sys.info call.pid (call.now sys - last.now sys) record.cpuTime
        (cpuTimeOf (last.records sys ++ (last.missing sys).map virtualRecord) record.pid) =
      usageBetween sys last call record ↔
    (last.now sys < call.now sys → record.pid ∉ last.missing sys) := by
  have used := call.records_cpuTime sys hz record member
  rw [cpuTimeOf_append, cpuTimeOf_virtual, usageBetween]
  cases found : cpuTimeOf (last.records sys) record.pid with
  | some old =>
      obtain ⟨earlier, read, pidEq, timeEq⟩ := cpuTimeOf_mem found
      have nonnegative : 0 ≤ old := timeEq ▸ last.records_cpuTime sys hz earlier read
      refine iff_of_true (usageSince_eq sys.info cpus call.pid nonnegative) ?_
      exact fun _ synthesised => InitCall.missing_notMem synthesised earlier read pidEq
  | none =>
      by_cases synthesised : record.pid ∈ last.missing sys
      · rw [if_pos synthesised, Option.none_or, usageSince_eq sys.info cpus call.pid (le_refl 0)]
        simp only [used, and_true, synthesised, not_true_eq_false, imp_false, not_lt]
        by_cases moved : last.now sys < call.now sys
        · have share : 0 ≤ 100 * (record.cpuTime - 0) / (call.now sys - last.now sys) :=
            div_nonneg (by linarith) (by linarith)
          rw [if_pos moved]
          refine iff_of_false ?_ (not_le.mpr moved)
          simp only [capped]
          split
          · intro negative
            linarith
          · intro negative
            have positive := le_min share (by norm_num : (0 : ℚ) ≤ 100)
            linarith
        · simp [moved, not_lt.mp moved]
      · simp [synthesised, usageSince]

theorem InitCall.init_usage {sys : Sys} {call : InitCall} {ref : TreeRef} (sized : Sized ref)
    (success : 0 < (call.init sys ref).2) {index : Nat} {record : ProcessRecord}
    (read : (call.records sys)[index]? = some record) :
    (entryAt (visibleEntries (call.init sys ref).1) index).cpu.usage.self =
      usageSince sys.info call.pid
        (call.now sys - (entryAt (visibleEntries ref) 0).time) record.cpuTime
        (cpuTimeOf ((visibleEntries ref).map measured) record.pid) := by
  rcases call.init_view sys ref with ⟨_, _, views, _, usages⟩ | ⟨_, failed, _⟩
  · obtain ⟨bound, _⟩ := List.getElem?_eq_some_iff.mp read
    have longer := congrArg List.length views
    simp only [List.length_map, List.length_append] at longer
    have inside : index < (visibleEntries (call.init sys ref).1).length := by omega
    have same : measured (entryAt (visibleEntries (call.init sys ref).1) index) = record :=
      entryAt_view measured views read
    have pidSame := congrArg (·.pid) same
    have timeSame := congrArg (·.cpuTime) same
    simp only [measured] at pidSame timeSame
    rw [usages index inside, oldptree_lookup ref sized, pidSame, timeSame]
  · omega

theorem afterInits_concat (sys : Sys) (done : List InitCall) (call : InitCall) :
    afterInits sys (done ++ [call]) = (call.init sys (afterInits sys done)).1 := by
  rw [afterInits, Loop.run_concat]
  rfl

theorem afterInits_sized (sys : Sys) (calls : List InitCall) : Sized (afterInits sys calls) :=
  Loop.run_invariant Sized sized_initial (fun ref call _ => call.init_sized sys ref) calls

theorem usage_iff (sys : Sys) (hz : 0 < sys.info.hz) (cpus : 0 < sys.info.cpuCount)
    (done : List InitCall) (call : InitCall)
    (success : 0 < (call.init sys (afterInits sys done)).2) {index : Nat} {record : ProcessRecord}
    (read : (call.records sys)[index]? = some record) :
    (entryAt (visibleEntries (afterInits sys (done ++ [call]))) index).cpu.usage.self =
        expectedUsage sys done call record ↔
      ∀ last ∈ done.getLast?, last.Succeeds sys → last.now sys < call.now sys →
        record.pid ∉ last.missing sys := by
  rw [afterInits_concat, InitCall.init_usage (afterInits_sized sys done) success read]
  induction done using List.reverseRecOn with
  | nil =>
      refine iff_of_true rfl ?_
      intro last impossible
      cases impossible
  | append_singleton done last _ =>
      simp only [expectedUsage, List.getLast?_append, List.getLast?_singleton, Option.some_or,
        List.dropLast_concat, afterInits_concat, Option.mem_def, Option.some.injEq, forall_eq']
      rcases last.init_view sys (afterInits sys done) with ⟨succeeds, positive, views, time, _⟩ |
        ⟨fails, negative, none⟩
      · rw [if_pos positive, views, time,
          usageSince_iff sys hz cpus last call (List.mem_of_getElem? read)]
        simp [succeeds]
      · refine iff_of_true ?_ (fun succeeds => absurd succeeds fails)
        rw [if_neg (by omega), none]
        rfl

theorem usageCorrect_iff (sys : Sys) (hz : 0 < sys.info.hz) (cpus : 0 < sys.info.cpuCount)
    (done : List InitCall) (call : InitCall) :
    UsageCorrect sys done call ↔ NoVirtualBaseline sys done call := by
  have success : 0 < (call.init sys (afterInits sys done)).2 ↔ call.Succeeds sys := by
    rcases call.init_view sys (afterInits sys done) with ⟨succeeds, positive, _⟩ | ⟨fails, negative, _⟩
    · exact iff_of_true positive succeeds
    · exact iff_of_false (by omega) fails
  constructor
  · intro correct succeeds last lastMem lastSucceeds moved record member
    have positive := success.mpr succeeds
    obtain ⟨index, read⟩ := List.mem_iff_getElem?.mp member
    exact (usage_iff sys hz cpus done call positive read).mp (correct positive index record read)
      last lastMem lastSucceeds moved
  · intro separate positive index record read
    rw [usage_iff sys hz cpus done call positive read]
    intro last lastMem lastSucceeds moved
    exact separate (success.mp positive) last lastMem lastSucceeds moved record
      (List.mem_of_getElem? read)

/-- Over a whole run every published usage is measured against the call before if and only
if no process is read that the call before had synthesised. -/
theorem usageCorrect_run_iff (sys : Sys) (hz : 0 < sys.info.hz) (cpus : 0 < sys.info.cpuCount)
    (calls : List InitCall) :
    (∀ done call, done ++ [call] <+: calls → UsageCorrect sys done call) ↔
      ∀ done call, done ++ [call] <+: calls → NoVirtualBaseline sys done call := by
  simp only [usageCorrect_iff sys hz cpus]

def childScanned : InitCall where
  pid := allProcesses
  scan := sampleScan "cpu 1 2 3 4 5 6 7 8" [sampleProcess "/proc/4"
    "4 (sh) S 40 1 1 0 -1 4 1 2 3 4 12 34 5 6 20 0 1 0 25 90 2 0 1 1 0 0 0 0 6 4 1 0 0 0 17 0"]

def parentScanned : InitCall where
  pid := allProcesses
  scan := sampleScan "cpu 101 2 3 4 5 6 7 8" [sampleProcess "/proc/40"
    "40 (sh) S 0 1 1 0 -1 4 1 2 3 4 12 34 5 6 20 0 1 0 25 90 2 0 1 1 0 0 0 0 6 4 1 0 0 0 17 0"]

theorem usageCorrect_run_sample :
    (∀ done call, done ++ [call] <+: [childScanned, parentScanned] →
      UsageCorrect sampleSys done call) ↔
    ∀ done call, done ++ [call] <+: [childScanned, parentScanned] →
      NoVirtualBaseline sampleSys done call :=
  usageCorrect_run_iff sampleSys (by decide +kernel) (by decide) [childScanned, parentScanned]

/-- The parent, read for the first time, is measured against its virtual entry: its whole
cpu time of 46 counts for the interval of 50. -/
theorem usage_virtualBaseline :
    ((parentScanned.init sampleSys (afterInits sampleSys [childScanned])).2,
      (parentScanned.records sampleSys).map fun record =>
        (record.pid, expectedUsage sampleSys [childScanned] parentScanned record)) =
      (2, [(40, -1)]) ∧
    (entryAt (visibleEntries (afterInits sampleSys [childScanned, parentScanned])) 0).cpu.usage.self =
      92 ∧
    ¬∀ done call, done ++ [call] <+: [childScanned, parentScanned] →
      UsageCorrect sampleSys done call := by
  have expected : ((parentScanned.init sampleSys (afterInits sampleSys [childScanned])).2,
      (parentScanned.records sampleSys).map fun record =>
        (record.pid, expectedUsage sampleSys [childScanned] parentScanned record)) =
      (2, [(40, -1)]) := by decide +kernel
  have published : (entryAt (visibleEntries
      (afterInits sampleSys [childScanned, parentScanned])) 0).cpu.usage.self = 92 := by
    decide +kernel
  refine ⟨expected, published, ?_⟩
  intro correct
  obtain ⟨result, wanted⟩ := Prod.mk.inj expected
  have atParent := correct [childScanned] parentScanned (List.prefix_refl _) (by rw [result]; decide)
  cases read : parentScanned.records sampleSys with
  | nil =>
      rw [read] at wanted
      cases wanted
  | cons record rest =>
      rw [read, List.map_cons, List.cons.injEq, Prod.mk.injEq] at wanted
      have usage := atParent 0 record (by rw [read]; rfl)
      rw [wanted.1.2] at usage
      have impossible := published.symm.trans usage
      norm_num at impossible

end SimpleProcessMonitor
