import SimpleProcessMonitor.KernelChecks
import SimpleProcessMonitor.MessageChecks
import SimpleProcessMonitor.MonitorChecks

/-!
The reports from `/proc` to the messages for the logger: which processes and threads a reader of
them gets back, in terms of what the kernel showed to each of the monitors.
-/

namespace SimpleProcessMonitor

open Allocation CString Decimal Selection

/-- The two updates of one `collectTopInfo`, and what the kernel shows to each. -/
structure Watch where
  last : Outside
  lastGrowth : Nat → Nat
  first : Snapshot
  call : Outside
  callGrowth : Nat → Nat
  second : Snapshot

/-- A directory without tasks is one that `glob` does not find. -/
def Snapshot.Seen (snapshot : Snapshot) (mode : ScanMode) (outside : Outside) : Prop :=
  snapshot.Presented mode outside ∨ outside.globbed = none ∧ snapshot.tasks = []

namespace Watch

variable (watch : Watch)

def readings (mode : ScanMode) : Readings where
  first := watch.last.scan mode.pid
  firstGrowth := watch.lastGrowth
  second := watch.call.scan mode.pid
  secondGrowth := watch.callGrowth

noncomputable def infos (sys : Sys) (mode : ScanMode) : List ProcessOrThreadInfo :=
  watch.second.living.map (watch.second.info sys mode (watch.first.left mode))

structure Seen (mode : ScanMode) : Prop where
  first : watch.first.Seen mode watch.last
  second : watch.second.Seen mode watch.call
  continues : watch.first.Rooted mode → watch.second.Continues mode watch.first
  rooted : mode.pid = allProcesses → watch.second.Rooted mode
  closed : watch.second.Closed mode
  short : ∀ task ∈ watch.second.living, (task.image.command mode).length ≤ 2 ^ 31 - 101

/-- The `count` tasks with the greatest usage, or all if there are fewer. -/
def Reports (sys : Sys) (mode : ScanMode) (count : Int) (reported : List ProcessOrThreadInfo) :
    Prop :=
  Greatest (infoKey .cpu) (watch.infos sys mode) (min count.toNat watch.second.living.length)
    reported

end Watch

section Collect

variable {sys : Sys} {mode : ScanMode} {outside : Outside} {snapshot : Snapshot}

theorem processTreeInit_notFound (missing : outside.globbed = none) (sys : Sys) (ref : TreeRef) :
    visibleEntries (processTreeInit sys mode.pid (outside.scan mode.pid) ref).1 = [] := by
  have nothing : initprocesstreeSysdep sys (outside.scan mode.pid) mode.pid = none := by
    rw [initprocesstreeSysdep, Outside.scan, missing]
    rfl
  rcases processTreeInit_cases sys mode.pid (outside.scan mode.pid) ref with ⟨_, _, _, empty⟩ |
    ⟨records, _, read, _⟩
  · exact empty
  · rw [nothing] at read
    cases read

theorem Snapshot.Seen.views_ended (seen : snapshot.Seen mode outside) (ended : snapshot.living = [])
    (sys : Sys) (ref : TreeRef) :
    visibleEntries (processTreeInit sys mode.pid (outside.scan mode.pid) ref).1 = [] := by
  rcases seen with presented | ⟨missing, _⟩
  · rcases presented.init_cases ref with ⟨⟨living, _⟩, _⟩ | ⟨_, _, empty⟩
    · exact absurd ended living
    · exact empty
  · exact processTreeInit_notFound missing sys ref

theorem Snapshot.Seen.presented (seen : snapshot.Seen mode outside) (living : snapshot.living ≠ []) :
    snapshot.Presented mode outside := by
  refine seen.resolve_right fun missing => living ?_
  rw [Snapshot.living, missing.2]
  rfl

theorem Snapshot.Seen.follows (seen : snapshot.Seen mode outside)
    (cpus : 0 < sys.info.cpuCount) (fits : sys.info.cpuCount < 2 ^ 31) (ref : TreeRef) :
    Follows sys mode (snapshot.left mode)
      (processTreeInit sys mode.pid (outside.scan mode.pid) ref).1 := by
  by_cases ended : snapshot.living = []
  · rw [Snapshot.left, if_neg fun rooted => rooted.1 ended]
    exact follows_empty (processTreeInit_sized sys mode.pid _ ref) (seen.views_ended ended sys ref)
  · exact (seen.presented ended).follows cpus fits ref

end Collect

section Legible

variable {sys : Sys} {mode : ScanMode} {snapshot : Snapshot}

theorem capped_small {pid : Int} {value : ℚ} (nonneg : 0 ≤ value) (small : value < 2 ^ 128) :
    |capped pid value| < 2 ^ 128 := by
  unfold capped
  split
  · rwa [abs_of_nonneg nonneg]
  · rw [abs_of_nonneg (le_min nonneg (by norm_num))]
    exact (min_le_left _ _).trans_lt small

theorem Snapshot.usage_small (hz : 1 ≤ sys.info.hz) (previous : Option Snapshot) (task : LiveTask) :
    |snapshot.usage sys mode previous task| < 2 ^ 128 := by
  have unknown : |(-1 : ℚ)| < 2 ^ 128 := by norm_num
  unfold Snapshot.usage
  cases previous with
  | none => exact unknown
  | some last =>
      simp only
      cases found : last.ticksOf task with
      | none => exact unknown
      | some earlier =>
          simp only
          split
          · rename_i moved
            obtain ⟨later, forward⟩ := moved
            have ticks : (task.ticks : ℚ) < 2 ^ 64 := by
              exact_mod_cast Int.emod_lt_of_pos _ (by decide : (0 : Int) < 2 ^ 64)
            have nonneg : (0 : ℚ) ≤ earlier := by exact_mod_cast Snapshot.ticksOf_nonnegative found
            have grown : (earlier : ℚ) ≤ task.ticks := by exact_mod_cast forward
            have elapsed : (1 : ℚ) ≤ snapshot.clock sys - last.clock sys := by
              have whole : 1 ≤ snapshot.clock sys - last.clock sys := by omega
              exact_mod_cast whole
            have used : 0 ≤ 100 * (task.ticks - earlier : ℚ) / sys.info.hz :=
              div_nonneg (by linarith) (by linarith)
            have usedSmall : 100 * (task.ticks - earlier : ℚ) / sys.info.hz ≤ 100 * 2 ^ 64 :=
              (div_le_self (by linarith) hz).trans (by linarith)
            refine capped_small (div_nonneg (by linarith) (by linarith)) ?_
            refine (div_le_self (by linarith) elapsed).trans_lt ?_
            linarith
          · exact unknown

theorem Snapshot.info_legible (hz : 1 ≤ sys.info.hz) (previous : Option Snapshot) (task : LiveTask)
    (short : (task.image.command mode).length ≤ 2 ^ 31 - 101) :
    Legible (snapshot.info sys mode previous task) := by
  have ram : (snapshot.info sys mode previous task).ramUsage < 2 ^ 64 := by
    have range := Int.emod_lt_of_pos (task.image.line.rss * sys.info.pageSize)
      (by decide : (0 : Int) < 2 ^ 64)
    change (task.image.line.rss * sys.info.pageSize % 2 ^ 64).toNat < 2 ^ 64
    omega
  exact Legible.of_short task.id.inRange (Snapshot.usage_small hz previous task) ram short

theorem Watch.Seen.printable {watch : Watch} (seen : watch.Seen mode) (hz : 1 ≤ sys.info.hz) :
    ∀ info ∈ watch.infos sys mode, Printable info := by
  intro info member
  obtain ⟨task, living, rfl⟩ := List.mem_map.mp member
  exact (Snapshot.info_legible hz _ task (seen.short task living)).toPrintable

end Legible

def threadInfos : List ProcessOrThreadInfo := [
  { sampleInfo 7 50 12 with cmdline := trickyLine.name },
  { sampleInfo 12 100 5 with cmdline := trickyLine.name }]

end SimpleProcessMonitor
