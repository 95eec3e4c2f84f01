import Mathlib.Data.List.Find
import SimpleProcessMonitor.CpuLineChecks
import SimpleProcessMonitor.MonitorCore
import SimpleProcessMonitor.OutcomeChecks
import SimpleProcessMonitor.ScanImageChecks
import SimpleProcessMonitor.SelectionChecks

/-!
The tree, the usages and the reports in terms of what the kernel shows: its tasks, and the
first line of `/proc/stat`.
-/

namespace SimpleProcessMonitor

open CString Decimal Selection

structure LiveTask where
  id : PositiveInt
  visit : Visit
  image : TaskImage

namespace LiveTask

variable (task : LiveTask)

def record (sys : Sys) (starttime : Int) (mode : ScanMode) : ProcessRecord :=
  task.image.record sys starttime mode task.id task.visit

def link : Int × Int :=
  (task.id.value, task.image.line.ppid)

def ticks : Int :=
  (task.image.line.utime + task.image.line.stime) % 2 ^ 64

end LiveTask

def Listed.live (listed : Listed) : Option LiveTask :=
  listed.image.map fun image => ⟨listed.id, listed.visit, image⟩

/-- What the kernel shows to one `ProcessTree_init`. The ids in a directory are distinct. -/
structure Snapshot where
  tasks : List Listed
  cpus : List CpuCounter
  following : Bytes
  distinct : (tasks.map fun listed => listed.id.value).Nodup
  accepted : Accepted cpus.length
  cpusFit : (cpuLine (cpus.take 10)).length ≤ 8191
  stop : NoDigit following
  absent : cpus.length < 10 → scanInt .ulong following = none

namespace Snapshot

def living (snapshot : Snapshot) : List LiveTask :=
  snapshot.tasks.filterMap Listed.live

def links (snapshot : Snapshot) : Links :=
  snapshot.living.map LiveTask.link

/-- The ticks of all cores, divided by their number. -/
def clock (snapshot : Snapshot) (sys : Sys) : Int :=
  (usageOf (snapshot.cpus.map CpuCounter.value)).total / sys.info.cpuCount

/-- A tree of processes needs a root: a process without a parent, or one whose parent is
not there. -/
def Rooted (snapshot : Snapshot) (mode : ScanMode) : Prop :=
  snapshot.living ≠ [] ∧ (mode.pid = allProcesses → ∃ task ∈ snapshot.living,
    task.link.1 = task.link.2 ∨ task.link.2 = -1 ∨
      ∀ other ∈ snapshot.living, other.link.1 ≠ task.link.2)

/-- The ticks that a task had in the snapshot, if it was there already. -/
def ticksOf (snapshot : Snapshot) (task : LiveTask) : Option Int :=
  (snapshot.living.find? fun other => other.id.value == task.id.value &&
    other.image.line.starttime == task.image.line.starttime).map LiveTask.ticks

def usage (sys : Sys) (mode : ScanMode) (previous : Option Snapshot) (snapshot : Snapshot)
    (task : LiveTask) : ℚ :=
  match previous with
  | none => -1
  | some last =>
      match last.ticksOf task with
      | none => -1
      | some earlier =>
          if last.clock sys < snapshot.clock sys ∧ earlier ≤ task.ticks then
            capped mode.pid (100 * (100 * (task.ticks - earlier) / sys.info.hz) /
              (snapshot.clock sys - last.clock sys))
          else -1

/-- No id was given to another task between the two snapshots, and none was known before only as
that of a parent that is not there. The code goes by the ids alone. -/
structure Continues (snapshot : Snapshot) (mode : ScanMode) (last : Snapshot) : Prop where
  started : ∀ task ∈ snapshot.living, ∀ other ∈ last.living, other.id.value = task.id.value →
    other.image.line.starttime = task.image.line.starttime
  named : ∀ task ∈ snapshot.living, task.id.value ∉ virtualPids mode.pid last.links

/-- Every process that is shown as a parent is there. -/
def Closed (snapshot : Snapshot) (mode : ScanMode) : Prop :=
  mode.pid = allProcesses → ∀ task ∈ snapshot.living, 0 < task.link.2 →
    ∃ other ∈ snapshot.living, other.link.1 = task.link.2

structure Presented (snapshot : Snapshot) (mode : ScanMode) (outside : Outside) : Prop where
  shows : outside.Shows mode snapshot.tasks
  procStat : outside.procStat.file (bytes "/proc/stat") =
    .content (cpuLine snapshot.cpus ++ snapshot.following)

end Snapshot

section Presented

variable {sys : Sys} {mode : ScanMode} {outside : Outside} {snapshot : Snapshot}

def initCall (mode : ScanMode) (outside : Outside) : InitCall :=
  ⟨mode.pid, outside.scan mode.pid⟩

theorem Snapshot.Presented.records (presented : snapshot.Presented mode outside) :
    (initCall mode outside).records sys =
      snapshot.living.map fun task => task.record sys outside.starttime mode := by
  have stored (listed : Listed) : listed.record sys outside.starttime mode =
      listed.live.map fun task => task.record sys outside.starttime mode := by
    rw [Listed.record, Listed.live, Option.map_map]
    rfl
  rw [InitCall.records, initCall, presented.shows.scanned sys, Option.getD_some, Snapshot.living,
    List.map_filterMap]
  exact List.filterMap_congr fun listed _ => stored listed

theorem Snapshot.Presented.clock (presented : snapshot.Presented mode outside)
    (cpus : 0 < sys.info.cpuCount) (fits : sys.info.cpuCount < 2 ^ 31) :
    (initCall mode outside).now sys = snapshot.clock sys := by
  have name : procFilename (bytes "stat") (-1) (-1) = bytes "/proc/stat" := by decide
  have reading : getCpuUsateTime (initCall mode outside).scan.procStat
      (initCall mode outside).scan.stack = some (usageOf (snapshot.cpus.map CpuCounter.value)) := by
    have line := getCpuUsateTime_line snapshot.cpus snapshot.cpusFit snapshot.stop snapshot.absent
      outside.stack
    rw [if_pos snapshot.accepted] at line
    rw [initCall, Outside.scan, name, presented.procStat]
    exact line
  rw [InitCall.now_total cpus fits reading]
  rfl

theorem Snapshot.links_records (starttime : Int) :
    (snapshot.living.map fun task => task.record sys starttime mode).map recordLink =
      snapshot.links := by
  rw [List.map_map]
  rfl

theorem Snapshot.Presented.succeeds_iff (presented : snapshot.Presented mode outside) :
    (initCall mode outside).Succeeds sys ↔ snapshot.Rooted mode := by
  rw [InitCall.Succeeds, presented.records, Snapshot.Rooted, ne_eq, List.map_eq_nil_iff]
  refine and_congr Iff.rfl (imp_congr Iff.rfl ?_)
  rw [ne_eq, ← rootless_iff]
  simp only [Rootless, List.forall_mem_map, not_forall, not_and_or, not_not]
  constructor
  · rintro ⟨task, member, (own | absent)⟩
    · exact ⟨task, member, own.imp_right Or.inl⟩
    · exact ⟨task, member, Or.inr (Or.inr fun other listed same =>
        absent ⟨_, List.mem_map_of_mem listed, same⟩)⟩
  · rintro ⟨task, member, own | noParent | absent⟩
    · exact ⟨task, member, Or.inl (Or.inl own)⟩
    · exact ⟨task, member, Or.inl (Or.inr noParent)⟩
    · refine ⟨task, member, Or.inr ?_⟩
      rintro ⟨_, listed, same⟩
      obtain ⟨other, inTasks, rfl⟩ := List.mem_map.mp listed
      exact absent other inTasks same

theorem Snapshot.Presented.missing (presented : snapshot.Presented mode outside) :
    (initCall mode outside).missing sys = virtualPids mode.pid snapshot.links := by
  rw [InitCall.missing, presented.records, Snapshot.links_records]
  rfl

theorem Snapshot.Presented.init_cases (presented : snapshot.Presented mode outside) (ref : TreeRef) :
    (snapshot.Rooted mode ∧ 0 < (processTreeInit sys mode.pid (outside.scan mode.pid) ref).2 ∧
      (visibleEntries (processTreeInit sys mode.pid (outside.scan mode.pid) ref).1).map measured =
        (snapshot.living.map fun task => task.record sys outside.starttime mode) ++
          (virtualPids mode.pid snapshot.links).map virtualRecord ∧
      (entryAt (visibleEntries (processTreeInit sys mode.pid (outside.scan mode.pid) ref).1) 0).time =
        (initCall mode outside).now sys) ∨
    (¬snapshot.Rooted mode ∧ (processTreeInit sys mode.pid (outside.scan mode.pid) ref).2 < 0 ∧
      visibleEntries (processTreeInit sys mode.pid (outside.scan mode.pid) ref).1 = []) := by
  have view := (initCall mode outside).init_view sys ref
  rw [presented.succeeds_iff, presented.records, presented.missing] at view
  rcases view with ⟨rooted, positive, views, time, _⟩ | failed
  · exact Or.inl ⟨rooted, positive, views, time⟩
  · exact Or.inr failed

end Presented

section Usage

variable {sys : Sys} {mode : ScanMode} {last call : Outside} {first second : Snapshot}

theorem Snapshot.cpuTimeOf_ticks {last snapshot : Snapshot} (continues : snapshot.Continues mode last)
    (starttime : Int) {task : LiveTask} (living : task ∈ snapshot.living) :
    cpuTimeOf ((last.living.map fun task => task.record sys starttime mode) ++
        (virtualPids mode.pid last.links).map virtualRecord) task.id.value =
      (last.ticksOf task).map fun ticks : Int => (ticks : ℚ) / sys.info.hz * 100 := by
  have search : ((fun record : ProcessRecord => record.pid == task.id.value) ∘
      fun other : LiveTask => other.record sys starttime mode) =
        fun other => other.id.value == task.id.value := rfl
  have same : (last.living.find? fun other => other.id.value == task.id.value) =
      last.living.find? fun other => other.id.value == task.id.value &&
        other.image.line.starttime == task.image.line.starttime := by
    refine List.find?_congr fun other listed => ?_
    by_cases own : other.id.value = task.id.value
    · simp [own, continues.started task living other listed own]
    · simp [own]
  rw [cpuTimeOf_append, cpuTimeOf_virtual, if_neg (continues.named task living), Option.or_none,
    cpuTimeOf, List.find?_map, search, same, Option.map_map, Snapshot.ticksOf, Option.map_map]
  rfl

theorem Snapshot.ticksOf_nonnegative {last : Snapshot} {task : LiveTask} {earlier : Int}
    (found : last.ticksOf task = some earlier) : 0 ≤ earlier := by
  obtain ⟨other, -, rfl⟩ := Option.map_eq_some_iff.mp found
  exact Int.emod_nonneg _ (by decide)

theorem Snapshot.usageSince_ticks (hz : 0 < sys.info.hz) (cpus : 0 < sys.info.cpuCount)
    (task : LiveTask) (starttime : Int) :
    usageSince sys.info mode.pid (second.clock sys - first.clock sys)
        (task.record sys starttime mode).cpuTime
        ((first.ticksOf task).map fun ticks : Int => (ticks : ℚ) / sys.info.hz * 100) =
      second.usage sys mode (some first) task := by
  have cpuTime : (task.record sys starttime mode).cpuTime = task.ticks / sys.info.hz * 100 := rfl
  simp only [Snapshot.usage]
  cases found : first.ticksOf task with
  | none => rfl
  | some earlier =>
      have nonnegative : (0 : ℚ) ≤ earlier := by
        exact_mod_cast Snapshot.ticksOf_nonnegative found
      have scaled : 0 ≤ (earlier : ℚ) / sys.info.hz * 100 := by positivity
      have ordered : (earlier : ℚ) / sys.info.hz * 100 ≤ task.ticks / sys.info.hz * 100 ↔
          earlier ≤ task.ticks := by
        rw [mul_le_mul_iff_left₀ (by norm_num), div_le_div_iff_of_pos_right hz, Int.cast_le]
      have moved : (first.clock sys : ℚ) < second.clock sys ↔ first.clock sys < second.clock sys :=
        Int.cast_lt
      have difference : (task.ticks : ℚ) / sys.info.hz * 100 - earlier / sys.info.hz * 100 =
          100 * (task.ticks - earlier) / sys.info.hz := by
        ring
      rw [Option.map_some, usageSince_eq sys.info cpus mode.pid scaled, cpuTime, difference]
      simp only [ordered, moved]

/-- What a call finds in the array of the call before: nothing, or a snapshot. -/
structure Follows (sys : Sys) (mode : ScanMode) (previous : Option Snapshot) (ref : TreeRef) :
    Prop where
  sized : Sized ref
  empty : previous = none → visibleEntries ref = []
  behind : ∀ first ∈ previous, (entryAt (visibleEntries ref) 0).time = first.clock sys ∧
    ∃ starttime, (visibleEntries ref).map measured =
      (first.living.map fun task => task.record sys starttime mode) ++
        (virtualPids mode.pid first.links).map virtualRecord

theorem follows_empty {sys : Sys} {mode : ScanMode} {ref : TreeRef} (sized : Sized ref)
    (empty : visibleEntries ref = []) : Follows sys mode none ref :=
  ⟨sized, fun _ => empty, fun _ impossible => absurd impossible (Option.not_mem_none _)⟩

open scoped Classical in
/-- The snapshot that a call still finds: a call without a root leaves no array. -/
noncomputable def Snapshot.left (mode : ScanMode) (first : Snapshot) : Option Snapshot :=
  if first.Rooted mode then some first else none

theorem Snapshot.Presented.follows (presented : first.Presented mode last)
    (cpus : 0 < sys.info.cpuCount) (fits : sys.info.cpuCount < 2 ^ 31) (ref : TreeRef) :
    Follows sys mode (first.left mode)
      (processTreeInit sys mode.pid (last.scan mode.pid) ref).1 := by
  have sized := processTreeInit_sized sys mode.pid (last.scan mode.pid) ref
  rcases presented.init_cases ref with ⟨rooted, _, views, time⟩ | ⟨rootless, _, empty⟩
  · rw [Snapshot.left, if_pos rooted]
    refine ⟨sized, fun impossible => absurd impossible (Option.some_ne_none first), ?_⟩
    rintro _ ⟨⟩
    exact ⟨time.trans (presented.clock cpus fits), last.starttime, views⟩
  · rw [Snapshot.left, if_neg rootless]
    exact follows_empty sized empty

theorem Snapshot.Presented.views (presented : second.Presented mode call)
    (rooted : second.Rooted mode) (sys : Sys) (ref : TreeRef) :
    (visibleEntries (processTreeInit sys mode.pid (call.scan mode.pid) ref).1).map measured =
      (second.living.map fun task => task.record sys call.starttime mode) ++
        (virtualPids mode.pid second.links).map virtualRecord := by
  rcases presented.init_cases ref with ⟨_, _, views, _⟩ | ⟨rootless, _⟩
  · exact views
  · exact absurd rooted rootless

theorem Snapshot.Presented.entries (presented : second.Presented mode call)
    (hz : 0 < sys.info.hz) (cpus : 0 < sys.info.cpuCount) (fits : sys.info.cpuCount < 2 ^ 31)
    (rooted : second.Rooted mode) {previous : Option Snapshot} {ref : TreeRef}
    (follows : Follows sys mode previous ref)
    (continues : ∀ first ∈ previous, second.Continues mode first) {index : Nat} {task : LiveTask}
    (listed : second.living[index]? = some task) :
    (entryAt (visibleEntries (processTreeInit sys mode.pid (call.scan mode.pid) ref).1)
      index).cpu.usage.self = second.usage sys mode previous task := by
  have read : ((initCall mode call).records sys)[index]? =
      some (task.record sys call.starttime mode) := by
    rw [presented.records, List.getElem?_map, listed]
    rfl
  have success : 0 < ((initCall mode call).init sys ref).2 := by
    rcases presented.init_cases ref with ⟨_, positive, _⟩ | ⟨rootless, _⟩
    · exact positive
    · exact absurd rooted rootless
  have published := InitCall.init_usage follows.sized success read
  have own : (task.record sys call.starttime mode).pid = task.id.value := rfl
  refine published.trans ?_
  rw [presented.clock cpus fits, own]
  cases previous with
  | none =>
      rw [follows.empty rfl]
      rfl
  | some first =>
      obtain ⟨time, starttime, views⟩ := follows.behind first rfl
      rw [time, views, Snapshot.cpuTimeOf_ticks (continues first rfl) starttime (List.mem_of_getElem? listed)]
      exact Snapshot.usageSince_ticks hz cpus task call.starttime

end Usage

def Snapshot.info (sys : Sys) (mode : ScanMode) (previous : Option Snapshot) (snapshot : Snapshot)
    (task : LiveTask) : ProcessOrThreadInfo where
  pid := task.id.value
  threadNum := task.image.line.numThreads
  cpuUsage := snapshot.usage sys mode previous task
  ramUsage := (task.image.line.rss * sys.info.pageSize % 2 ^ 64).toNat
  cmdline := task.image.command mode

def infoKey (type : TopInfoType) (info : ProcessOrThreadInfo) : ℚ :=
  match type with
  | .cpu => info.cpuUsage
  | .ram => info.ramUsage

theorem Snapshot.living_distinct (snapshot : Snapshot) :
    (snapshot.living.map fun task => task.id.value).Nodup := by
  have part (tasks : List Listed) : ((tasks.filterMap Listed.live).map fun task => task.id.value).Sublist
      (tasks.map fun listed => listed.id.value) := by
    induction tasks with
    | nil => exact List.Sublist.slnil
    | cons listed tasks ih =>
        cases found : listed.image with
        | none => simpa [Listed.live, found] using ih.cons listed.id.value
        | some image => simpa [Listed.live, found] using ih.cons_cons listed.id.value
  exact snapshot.distinct.sublist (part snapshot.tasks)

section Report

variable {sys : Sys} {mode : ScanMode} {call : Outside} {snapshot : Snapshot}
  {previous : Option Snapshot} {ref : TreeRef}

theorem Snapshot.Presented.processInfo_entry (presented : snapshot.Presented mode call)
    (hz : 0 < sys.info.hz) (cpus : 0 < sys.info.cpuCount) (fits : sys.info.cpuCount < 2 ^ 31)
    (rooted : snapshot.Rooted mode) (follows : Follows sys mode previous ref)
    (continues : ∀ last ∈ previous, snapshot.Continues mode last) {index : Nat}
    {task : LiveTask} (listed : snapshot.living[index]? = some task) :
    processInfo (entryAt (visibleEntries
      (processTreeInit sys mode.pid (call.scan mode.pid) ref).1) index) =
        snapshot.info sys mode previous task := by
  have views := presented.views rooted sys ref
  have usage := presented.entries hz cpus fits rooted follows continues listed
  have own : measured (entryAt (visibleEntries
      (processTreeInit sys mode.pid (call.scan mode.pid) ref).1) index) =
        task.record sys call.starttime mode :=
    entryAt_view measured views (by rw [List.getElem?_map, listed]; rfl)
  have pid := congrArg (·.pid) own
  have threads := congrArg (·.threadsSelf) own
  have memory := congrArg (·.memoryUsage) own
  have cmdline := congrArg (·.cmdline) own
  simp only [measured] at pid threads memory cmdline
  rw [processInfo, usage, pid, threads, memory, cmdline]
  rfl

end Report

def sampleInfo (pid : Int) (cpuUsage : ℚ) (pages : Nat) : ProcessOrThreadInfo where
  pid := pid
  threadNum := 3
  cpuUsage := cpuUsage
  ramUsage := pages * 4096
  cmdline := bytes "sh -c"

end SimpleProcessMonitor
