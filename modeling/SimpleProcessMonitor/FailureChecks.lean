import SimpleProcessMonitor.SystemUsageChecks

/-!
What a failed `update_system_info` leaves behind: the exits clear hand-written lists of
members, the stages that succeeded have published before.
-/

namespace SimpleProcessMonitor

open CString

inductive Stage
  | loadavg
  | memory
  | cpu
  | filedescriptors
  deriving DecidableEq

namespace Stage

def remaining : Stage → List Stage
  | loadavg => [loadavg, memory, cpu, filedescriptors]
  | memory => [memory, cpu, filedescriptors]
  | cpu => [cpu, filedescriptors]
  | filedescriptors => [filedescriptors]

def completed : Stage → List Stage
  | loadavg => []
  | memory => [loadavg]
  | cpu => [loadavg, memory]
  | filedescriptors => [loadavg, memory, cpu]

end Stage

def filedescriptorsReadable (fileNr : Option Bytes) : Bool :=
  match fileNr with
  | none => false
  | some text =>
      match (fileLines text).head? with
      | none => false
      | some line => (sscanf fileNrFormat (cString line)).length == 3

def SystemFiles.failedStage (files : SystemFiles) : Option Stage :=
  if getloadavgSysdep files.loadavg = none then some .loadavg
  else if memoryReadable files.meminfo files.arcstats = false then some .memory
  else if getCpuUsateTime files.stat files.stack = none then some .cpu
  else if filedescriptorsReadable files.fileNr = false then some .filedescriptors
  else none

def Cleared (si : SystemInfo) : Stage → Prop
  | .loadavg => si.loadavg = (0, 0, 0)
  | .memory => si.memory.bytes = 0 ∧ si.memory.percent = 0 ∧ si.swapSize = 0 ∧
      si.swap.bytes = 0 ∧ si.swap.percent = 0
  | .cpu => ∀ percentage ∈ si.cpu.percentages, percentage = some 0
  | .filedescriptors => si.filedescriptors.allocated = 0 ∧ si.filedescriptors.unused = 0 ∧
      si.filedescriptors.maximum = 0

/-- The statistics of the stage are those of this update: the same as if it had started
from a record that holds nothing but the baseline of the CPU stage. -/
def Current (before : SystemState) (files : SystemFiles) (si : SystemInfo) : Stage → Prop
  | .loadavg => getloadavgSysdep files.loadavg = some si.loadavg
  | .memory =>
      let fresh := memoryPercentages
        (usedSystemMemorySysdep files.meminfo files.arcstats ⟨before.globals, {}⟩).2
      si.memory = fresh.si.memory ∧ si.swapSize = fresh.si.swapSize ∧ si.swap = fresh.si.swap
  | .cpu => si.cpu = (usedSystemCpuSysdep files.stat files.stack { old := before.si.cpu.old }).2
  | .filedescriptors =>
      si.filedescriptors = (usedSystemFiledescriptorsSysdep files.fileNr {}).2

/-- The percentages that `error3` does not touch. -/
def SystemCpuUsage.untouched (cpu : SystemCpuUsage) : List (Option ℚ) :=
  [cpu.nice, cpu.idle, cpu.hardirq, cpu.softirq, cpu.steal, cpu.guest, cpu.guestNice]

/-- What the exit for the stage does not clear is 0 already. -/
def NothingStale (si : SystemInfo) : Stage → Prop
  | .loadavg => si.swapSize = 0 ∧ ∀ percentage ∈ si.cpu.untouched, percentage = some 0
  | .memory => ∀ percentage ∈ si.cpu.untouched, percentage = some 0
  | .cpu => si.cpu.idle = some 0
  | .filedescriptors => True

theorem usedSystemMemorySysdep_failed {meminfo : FileRead} {arcstats : Option Bytes}
    {state : SystemState} (failed : (usedSystemMemorySysdep meminfo arcstats state).1 = false) :
    (usedSystemMemorySysdep meminfo arcstats state).2.si = (memoryError state).si := by
  revert failed
  unfold usedSystemMemorySysdep
  cases fileReadProc 2048 meminfo with
  | none => exact fun _ => rfl
  | some buf =>
      dsimp only
      cases memoryInUse (cString buf) arcstats
          (updateMemorySize (cString buf) state.globals).memorySize with
      | none => exact fun _ => rfl
      | some used =>
          cases scanMemoryKey "SwapTotal:" (cString buf) with
          | none => exact fun _ => rfl
          | some swapTotal =>
              cases scanMemoryKey "SwapFree:" (cString buf) with
              | none => exact fun _ => rfl
              | some swapFree => exact fun impossible => by cases impossible

/-- A successful memory stage assigns three members, from its files and the memory size. -/
theorem usedSystemMemorySysdep_fresh {meminfo : FileRead} {arcstats : Option Bytes}
    {state : SystemState} (succeeded : (usedSystemMemorySysdep meminfo arcstats state).1 = true) :
    (usedSystemMemorySysdep meminfo arcstats state).2 =
      ⟨(usedSystemMemorySysdep meminfo arcstats ⟨state.globals, {}⟩).2.globals,
        { state.si with
          memory.bytes := (usedSystemMemorySysdep meminfo arcstats ⟨state.globals, {}⟩).2.si.memory.bytes
          swapSize := (usedSystemMemorySysdep meminfo arcstats ⟨state.globals, {}⟩).2.si.swapSize
          swap.bytes := (usedSystemMemorySysdep meminfo arcstats ⟨state.globals, {}⟩).2.si.swap.bytes }⟩ := by
  revert succeeded
  unfold usedSystemMemorySysdep
  cases fileReadProc 2048 meminfo with
  | none => exact fun impossible => by cases impossible
  | some buf =>
      dsimp only
      cases memoryInUse (cString buf) arcstats
          (updateMemorySize (cString buf) state.globals).memorySize with
      | none => exact fun impossible => by cases impossible
      | some used =>
          cases scanMemoryKey "SwapTotal:" (cString buf) with
          | none => exact fun impossible => by cases impossible
          | some swapTotal =>
              cases scanMemoryKey "SwapFree:" (cString buf) with
              | none => exact fun impossible => by cases impossible
              | some swapFree => exact fun _ => rfl

theorem usedSystemFiledescriptorsSysdep_succeeds (fileNr : Option Bytes)
    (files : SystemFiledescriptors) :
    (usedSystemFiledescriptorsSysdep fileNr files).1 = filedescriptorsReadable fileNr := by
  unfold usedSystemFiledescriptorsSysdep filedescriptorsReadable
  cases fileNr with
  | none => rfl
  | some text =>
      dsimp only
      cases (fileLines text).head? with
      | none => rfl
      | some line => rfl

/-! The four error exits. -/

section Exits

variable (state : SystemState) {files : SystemFiles}

theorem updateSystemInfo_error1 (unread : getloadavgSysdep files.loadavg = none) :
    updateSystemInfo state files = (false, error1 state) := by
  simp only [updateSystemInfo, unread]

theorem updateSystemInfo_error2 {loadavg : ℚ × ℚ × ℚ}
    (read : getloadavgSysdep files.loadavg = some loadavg)
    (unreadable : memoryReadable files.meminfo files.arcstats = false) :
    ∃ globals, updateSystemInfo state files =
      (false, error2 ⟨globals, (memoryError { state with si.loadavg := loadavg }).si⟩) := by
  have failed : (usedSystemMemorySysdep files.meminfo files.arcstats
      { state with si.loadavg := loadavg }).1 = false :=
    (usedSystemMemorySysdep_spec _ _ _).1.trans unreadable
  have cleared := usedSystemMemorySysdep_failed failed
  rw [updateSystemInfo, read]
  dsimp only
  generalize usedSystemMemorySysdep files.meminfo files.arcstats
    { state with si.loadavg := loadavg } = memory at failed cleared ⊢
  obtain ⟨succeeded, globals, si⟩ := memory
  simp only at failed cleared
  subst succeeded si
  exact ⟨globals, rfl⟩

def beforeCpu (state : SystemState) (files : SystemFiles) (loadavg : ℚ × ℚ × ℚ) : SystemState :=
  let fresh := (usedSystemMemorySysdep files.meminfo files.arcstats ⟨state.globals, {}⟩).2
  memoryPercentages ⟨fresh.globals, { state.si with
    loadavg := loadavg
    memory.bytes := fresh.si.memory.bytes
    swapSize := fresh.si.swapSize
    swap.bytes := fresh.si.swap.bytes }⟩

theorem beforeCpu_current {loadavg : ℚ × ℚ × ℚ}
    (read : getloadavgSysdep files.loadavg = some loadavg) :
    Current state files (beforeCpu state files loadavg).si .loadavg ∧
      Current state files (beforeCpu state files loadavg).si .memory :=
  ⟨read, rfl, rfl, rfl⟩

theorem updateSystemInfo_cpuStage {loadavg : ℚ × ℚ × ℚ}
    (read : getloadavgSysdep files.loadavg = some loadavg)
    (readable : memoryReadable files.meminfo files.arcstats = true) :
    updateSystemInfo state files =
      match usedSystemCpuSysdep files.stat files.stack state.si.cpu with
      | (false, cpu) => (false, error3 { beforeCpu state files loadavg with si.cpu := cpu })
      | (true, cpu) =>
          match usedSystemFiledescriptorsSysdep files.fileNr state.si.filedescriptors with
          | (false, filedescriptors) => (false, error4 { beforeCpu state files loadavg with
              si.cpu := cpu, si.filedescriptors := filedescriptors })
          | (true, filedescriptors) => (true, { beforeCpu state files loadavg with
              si.cpu := cpu, si.filedescriptors := filedescriptors }) := by
  have succeeded : (usedSystemMemorySysdep files.meminfo files.arcstats
      { state with si.loadavg := loadavg }).1 = true :=
    (usedSystemMemorySysdep_spec _ _ _).1.trans readable
  have fresh := usedSystemMemorySysdep_fresh succeeded
  rw [updateSystemInfo, read]
  dsimp only
  generalize usedSystemMemorySysdep files.meminfo files.arcstats
    { state with si.loadavg := loadavg } = memory at succeeded fresh ⊢
  obtain ⟨flag, after⟩ := memory
  simp only at succeeded fresh
  subst flag after
  rfl

theorem usedSystemCpuSysdep_failed (unread : getCpuUsateTime files.stat files.stack = none)
    (cpu : SystemCpuUsage) :
    usedSystemCpuSysdep files.stat files.stack cpu = (false, { old := cpu.old, idle := cpu.idle }) := by
  simp only [usedSystemCpuSysdep, unread]

theorem usedSystemCpuSysdep_fresh {now : CpuUsageTime}
    (reading : getCpuUsateTime files.stat files.stack = some now) (cpu : SystemCpuUsage) :
    usedSystemCpuSysdep files.stat files.stack cpu =
      (true, (usedSystemCpuSysdep files.stat files.stack { old := cpu.old }).2) := by
  rw [usedSystemCpuSysdep_success reading, usedSystemCpuSysdep_success reading]

theorem updateSystemInfo_error3 {loadavg : ℚ × ℚ × ℚ}
    (read : getloadavgSysdep files.loadavg = some loadavg)
    (readable : memoryReadable files.meminfo files.arcstats = true)
    (unread : getCpuUsateTime files.stat files.stack = none) :
    updateSystemInfo state files = (false, error3 { beforeCpu state files loadavg with
      si.cpu := { old := state.si.cpu.old, idle := state.si.cpu.idle } }) := by
  rw [updateSystemInfo_cpuStage state read readable, usedSystemCpuSysdep_failed unread]

theorem updateSystemInfo_lastStage {loadavg : ℚ × ℚ × ℚ} {now : CpuUsageTime}
    (read : getloadavgSysdep files.loadavg = some loadavg)
    (readable : memoryReadable files.meminfo files.arcstats = true)
    (reading : getCpuUsateTime files.stat files.stack = some now) :
    ∃ filedescriptors,
      let reached := { beforeCpu state files loadavg with
        si.cpu := (usedSystemCpuSysdep files.stat files.stack { old := state.si.cpu.old }).2
        si.filedescriptors := filedescriptors }
      updateSystemInfo state files =
        if filedescriptorsReadable files.fileNr then (true, reached) else (false, error4 reached) := by
  have outcome := usedSystemFiledescriptorsSysdep_succeeds files.fileNr state.si.filedescriptors
  rw [updateSystemInfo_cpuStage state read readable, ← outcome,
    usedSystemCpuSysdep_fresh reading state.si.cpu]
  dsimp only
  generalize usedSystemFiledescriptorsSysdep files.fileNr state.si.filedescriptors = result
  obtain ⟨_ | _, filedescriptors⟩ := result <;> exact ⟨filedescriptors, rfl⟩

theorem updateSystemInfo_succeeds (state : SystemState) (files : SystemFiles) :
    (updateSystemInfo state files).1 = files.failedStage.isNone := by
  unfold SystemFiles.failedStage
  cases read : getloadavgSysdep files.loadavg with
  | none => rw [updateSystemInfo_error1 state read, if_pos rfl, Option.isNone_some]
  | some loadavg =>
      cases readable : memoryReadable files.meminfo files.arcstats with
      | false =>
          obtain ⟨globals, exit⟩ := updateSystemInfo_error2 state read readable
          simp [exit]
      | true =>
          cases reading : getCpuUsateTime files.stat files.stack with
          | none => simp [updateSystemInfo_error3 state read readable reading]
          | some now =>
              obtain ⟨filedescriptors, exit⟩ := updateSystemInfo_lastStage state read readable reading
              cases last : filedescriptorsReadable files.fileNr <;> simp [exit, last]

theorem updateSystemInfo_cleared_iff {stage : Stage} (failed : files.failedStage = some stage) :
    ((updateSystemInfo state files).1 = false ∧
      (∀ later ∈ stage.remaining, Cleared (updateSystemInfo state files).2.si later) ∧
      ∀ earlier ∈ stage.completed, Current state files (updateSystemInfo state files).2.si earlier) ↔
    NothingStale state.si stage := by
  unfold SystemFiles.failedStage at failed
  cases read : getloadavgSysdep files.loadavg with
  | none =>
      obtain rfl : Stage.loadavg = stage := by simpa [read] using failed
      rw [updateSystemInfo_error1 state read]
      simp [Stage.remaining, Stage.completed, Cleared, NothingStale, SystemCpuUsage.percentages,
        SystemCpuUsage.untouched, error1, error2, error3, error4]
  | some loadavg =>
      have published := beforeCpu_current state read
      cases readable : memoryReadable files.meminfo files.arcstats with
      | false =>
          obtain rfl : Stage.memory = stage := by simpa [read, readable] using failed
          obtain ⟨globals, exit⟩ := updateSystemInfo_error2 state read readable
          rw [exit]
          simp [Stage.remaining, Stage.completed, Cleared, Current, NothingStale, read,
            SystemCpuUsage.percentages, SystemCpuUsage.untouched, memoryError, error2, error3, error4]
      | true =>
          cases reading : getCpuUsateTime files.stat files.stack with
          | none =>
              obtain rfl : Stage.cpu = stage := by simpa [read, readable, reading] using failed
              rw [updateSystemInfo_error3 state read readable reading]
              simp only [Stage.remaining, Stage.completed, List.forall_mem_cons, List.not_mem_nil,
                false_imp_iff, implies_true, and_true, true_and, NothingStale]
              refine ⟨fun whole => whole.1.1 _ (by simp [SystemCpuUsage.percentages, error3, error4]), ?_⟩
              intro idle
              refine ⟨⟨?_, rfl, rfl, rfl⟩, published.1, published.2⟩
              simp [Cleared, SystemCpuUsage.percentages, error3, error4, idle]
          | some now =>
              cases last : filedescriptorsReadable files.fileNr with
              | true => simp [read, readable, reading, last] at failed
              | false =>
                  obtain rfl : Stage.filedescriptors = stage := by
                    simpa [read, readable, reading, last] using failed
                  obtain ⟨filedescriptors, exit⟩ :=
                    updateSystemInfo_lastStage state read readable reading
                  rw [exit, last, if_neg Bool.false_ne_true]
                  simp only [Stage.remaining, Stage.completed, List.forall_mem_cons,
                    List.not_mem_nil, false_imp_iff, implies_true, and_true, true_and,
                    NothingStale, iff_true]
                  exact ⟨⟨rfl, rfl, rfl⟩, published.1, published.2, rfl⟩

end Exits

/-! After two updates the CPU was idle for the whole interval, and then `/proc/stat`
cannot be read. -/

def unreadableStat : SystemFiles := { sampleFiles "104" with stat := .openFailed }

def idleState : SystemState :=
  afterUpdates zeroGlobals true [sampleFiles "94", sampleFiles "104"]

/-- The idle percentage of the updates before is left by a failure at the CPU, and not by one
at the file descriptors. -/
theorem updateSystemInfo_cleared_iff_sample :
    ¬((updateSystemInfo idleState unreadableStat).1 = false ∧
      (∀ later ∈ Stage.cpu.remaining, Cleared (updateSystemInfo idleState unreadableStat).2.si later) ∧
      ∀ earlier ∈ Stage.cpu.completed,
        Current idleState unreadableStat (updateSystemInfo idleState unreadableStat).2.si earlier) ∧
    (updateSystemInfo idleState (sampleFiles "114")).1 = false ∧
      (∀ later ∈ Stage.filedescriptors.remaining,
        Cleared (updateSystemInfo idleState (sampleFiles "114")).2.si later) ∧
      ∀ earlier ∈ Stage.filedescriptors.completed, Current idleState (sampleFiles "114")
        (updateSystemInfo idleState (sampleFiles "114")).2.si earlier := by
  have stale : ¬NothingStale idleState.si .cpu := by
    unfold NothingStale
    decide +kernel
  refine ⟨fun whole => stale ((updateSystemInfo_cleared_iff idleState ?_).mp whole),
    (updateSystemInfo_cleared_iff idleState ?_).mpr trivial⟩
  · decide +kernel
  · decide +kernel

theorem idle_percentage_remains :
    ¬∀ (state : SystemState) (files : SystemFiles) (stage : Stage), files.failedStage = some stage →
      (updateSystemInfo state files).1 = false ∧
      (∀ later ∈ stage.remaining, Cleared (updateSystemInfo state files).2.si later) ∧
      ∀ earlier ∈ stage.completed, Current state files (updateSystemInfo state files).2.si earlier := by
  intro claim
  have cleared := (claim (afterUpdates zeroGlobals true [sampleFiles "94", sampleFiles "104"])
    unreadableStat .cpu (by decide +kernel)).2.1 .cpu List.mem_cons_self
  have idle : (updateSystemInfo (afterUpdates zeroGlobals true [sampleFiles "94", sampleFiles "104"])
      unreadableStat).2.si.cpu.idle = some 100 := by decide +kernel
  have zero := cleared _ (by simp [SystemCpuUsage.percentages] : (updateSystemInfo
    (afterUpdates zeroGlobals true [sampleFiles "94", sampleFiles "104"])
      unreadableStat).2.si.cpu.idle ∈ _)
  rw [idle] at zero
  revert zero
  decide +kernel

end SimpleProcessMonitor
