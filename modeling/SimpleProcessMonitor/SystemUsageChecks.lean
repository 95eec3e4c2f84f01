import Mathlib.Algebra.BigOperators.Group.List.Basic
import Mathlib.Algebra.Order.Field.Basic
import Mathlib.Algebra.Order.Ring.Rat
import Mathlib.Data.Rat.Cast.Order
import Mathlib.Tactic.FieldSimp
import Mathlib.Tactic.Linarith
import Mathlib.Tactic.Ring
import SimpleProcessMonitor.Library.Loop
import SimpleProcessMonitor.SystemUsageCore

/-! The CPU percentages that a run of `update_system_info` calls publishes. -/

namespace SimpleProcessMonitor

open CString

def SystemCpuUsage.percentages (cpu : SystemCpuUsage) : List (Option ℚ) :=
  [cpu.user, cpu.nice, cpu.system, cpu.idle, cpu.iowait, cpu.hardirq, cpu.softirq, cpu.steal,
    cpu.guest, cpu.guestNice]

/-- The ten counters that are compared, guest time taken out of `user` and `nice`. -/
def CpuUsageTime.counters (time : CpuUsageTime) : List Nat :=
  [wrap64 (time.user - time.guest), wrap64 (time.nice - time.guestNice), time.system, time.idle,
    time.iowait, time.hardirq, time.softirq, time.steal, time.guest, time.guestNice]

def elapsed (old now : CpuUsageTime) : Nat := wrap64 (now.total - old.total)

theorem cpuPercentages_counters (old now : CpuUsageTime) :
    (cpuPercentages old now).percentages =
      List.zipWith (fun previous current => usagePercent previous current (elapsed old now))
        old.counters now.counters := rfl

def Published (percentage : Option ℚ) : Prop :=
  ∃ value, percentage = some value ∧ 0 ≤ value ∧ value ≤ 100

theorem usagePercent_forward {previous current total : Nat} (forward : previous ≤ current)
    (positive : 0 < total) :
    usagePercent previous current total = some (((current : ℚ) - previous) / total * 100) := by
  have divisor : (total : ℚ) ≠ 0 := by exact_mod_cast positive.ne'
  simp [usagePercent, Nat.not_lt.mpr forward, divisor, Nat.cast_sub forward]

theorem share_nonneg {previous current : Nat} (forward : previous ≤ current) (total : Nat) :
    0 ≤ ((current : ℚ) - previous) / total * 100 := by
  have ordered : (previous : ℚ) ≤ current := by exact_mod_cast forward
  have advance : (0 : ℚ) ≤ (current : ℚ) - previous := by linarith
  positivity

theorem usagePercent_published (previous current total : Nat) :
    Published (usagePercent previous current total) ↔
      (previous ≤ current → 0 < total ∧ current - previous ≤ total) := by
  by_cases back : current < previous
  · have zero : usagePercent previous current total = some 0 := if_pos back
    have never : ¬previous ≤ current := by omega
    simp [Published, zero, never]
  · have forward : previous ≤ current := by omega
    rcases Nat.eq_zero_or_pos total with rfl | positive
    · have divided : usagePercent previous current 0 = none := by simp [usagePercent, back]
      simp [Published, divided, forward]
    · have divisor : (0 : ℚ) < total := by exact_mod_cast positive
      have ratio : ((current : ℚ) - previous) / total * 100 ≤ 100 ↔ current - previous ≤ total := by
        rw [mul_le_iff_le_one_left (by norm_num), div_le_one divisor, ← Nat.cast_sub forward]
        exact Nat.cast_le
      have nonneg := share_nonneg forward total
      simp [Published, usagePercent_forward forward positive, forward, positive, nonneg, ratio]

theorem usedSystemCpuSysdep_success {stat : FileRead} {stack now : CpuUsageTime}
    (reading : getCpuUsateTime stat stack = some now) (cpu : SystemCpuUsage) :
    usedSystemCpuSysdep stat stack cpu =
      (true, if cpu.old.total = 0 then unknownPercentages now else cpuPercentages cpu.old now) := by
  simp only [usedSystemCpuSysdep, reading]
  split <;> rfl

theorem usedSystemCpuSysdep_old {stat : FileRead} {stack now : CpuUsageTime}
    (reading : getCpuUsateTime stat stack = some now) (cpu : SystemCpuUsage) :
    (usedSystemCpuSysdep stat stack cpu).2.old = now := by
  rw [usedSystemCpuSysdep_success reading]
  dsimp only
  split <;> rfl

theorem usedSystemCpuSysdep_published (first second : FileRead) (stack stack' old now : CpuUsageTime)
    (cpu : SystemCpuUsage) (readFirst : getCpuUsateTime first stack = some old)
    (readSecond : getCpuUsateTime second stack' = some now) (baseline : old.total ≠ 0) :
    (∀ percentage ∈
        (usedSystemCpuSysdep second stack' (usedSystemCpuSysdep first stack cpu).2).2.percentages,
      Published percentage) ↔
      ∀ pair ∈ old.counters.zip now.counters, pair.1 ≤ pair.2 →
        0 < elapsed old now ∧ pair.2 - pair.1 ≤ elapsed old now := by
  have previous := usedSystemCpuSysdep_old readFirst cpu
  rw [usedSystemCpuSysdep_success readSecond, previous, if_neg baseline]
  rw [cpuPercentages_counters, ← List.map_uncurry_zip_eq_zipWith, List.forall_mem_map]
  simp only [Function.uncurry, usagePercent_published]

def sampleStat (idle : String) : FileRead := .content (bytes s!"cpu 4 0 2 {idle}\n")

theorem usedSystemCpuSysdep_published_sample :
    (usedSystemCpuSysdep (sampleStat "104") {}
        (usedSystemCpuSysdep (sampleStat "94") {} {}).2).2.percentages.length = 10 ∧
      ¬∃ percentage ∈ (usedSystemCpuSysdep (sampleStat "104") {}
        (usedSystemCpuSysdep (sampleStat "94") {} {}).2).2.percentages, ¬Published percentage := by
  have published := (usedSystemCpuSysdep_published (sampleStat "94") (sampleStat "104") {} {}
    { user := 4, system := 2, idle := 94, total := 100 }
    { user := 4, system := 2, idle := 104, total := 110 } {}
    (by decide) (by decide) (by decide)).mpr (by decide)
  refine ⟨rfl, ?_⟩
  rintro ⟨percentage, member, unpublished⟩
  exact unpublished (published percentage member)

theorem equal_readings_unpublished :
    ¬∀ (first second : FileRead) (stack stack' old now : CpuUsageTime) (cpu : SystemCpuUsage),
      getCpuUsateTime first stack = some old → getCpuUsateTime second stack' = some now →
      old.total ≠ 0 →
      ∀ percentage ∈
        (usedSystemCpuSysdep second stack' (usedSystemCpuSysdep first stack cpu).2).2.percentages,
        Published percentage := by
  intro claim
  have reading : getCpuUsateTime (sampleStat "94") {} =
      some { user := 4, system := 2, idle := 94, total := 100 } := by decide
  have divided : none ∈ (usedSystemCpuSysdep (sampleStat "94") {}
      (usedSystemCpuSysdep (sampleStat "94") {} {}).2).2.percentages := by
    rw [usedSystemCpuSysdep_success reading, usedSystemCpuSysdep_old reading]
    simp [cpuPercentages, SystemCpuUsage.percentages, usagePercent, wrap64]
  obtain ⟨value, quotient, _⟩ := claim _ _ _ _ _ _ {} reading reading (by decide) none divided
  cases quotient

/-! The baseline: which reading the next percentages are computed against. -/

def memoryReadable (meminfo : FileRead) (arcstats : Option Bytes) : Bool :=
  match fileReadProc 2048 meminfo with
  | none => false
  | some buf =>
      (memoryInUse (cString buf) arcstats 0).isSome && (scanMemoryKey "SwapTotal:" (cString buf)).isSome &&
        (scanMemoryKey "SwapFree:" (cString buf)).isSome

theorem memoryInUse_isSome (text : Bytes) (arcstats : Option Bytes) (memorySize : Nat) :
    (memoryInUse text arcstats memorySize).isSome = (memoryInUse text arcstats 0).isSome := by
  unfold memoryInUse
  split
  · rfl
  · split <;> rfl

theorem updateMemorySize_fixed (text : Bytes) (globals : Globals) :
    (updateMemorySize text globals).fixed = globals.fixed := by
  unfold updateMemorySize
  split <;> rfl

/-- Whether the memory stage succeeds depends on its files alone; it keeps what the other
stages own. -/
theorem usedSystemMemorySysdep_spec (meminfo : FileRead) (arcstats : Option Bytes)
    (state : SystemState) :
    (usedSystemMemorySysdep meminfo arcstats state).1 = memoryReadable meminfo arcstats ∧
      (usedSystemMemorySysdep meminfo arcstats state).2.si.cpu = state.si.cpu ∧
      (usedSystemMemorySysdep meminfo arcstats state).2.globals.fixed = state.globals.fixed := by
  unfold usedSystemMemorySysdep memoryReadable
  cases fileReadProc 2048 meminfo with
  | none => exact ⟨rfl, rfl, rfl⟩
  | some buf =>
      have sized := updateMemorySize_fixed (cString buf) state.globals
      have available := memoryInUse_isSome (cString buf) arcstats
        (updateMemorySize (cString buf) state.globals).memorySize
      dsimp only
      rw [← available]
      cases memoryInUse (cString buf) arcstats
          (updateMemorySize (cString buf) state.globals).memorySize with
      | none => exact ⟨rfl, rfl, sized⟩
      | some used =>
          cases scanMemoryKey "SwapTotal:" (cString buf) with
          | none => exact ⟨rfl, rfl, sized⟩
          | some swapTotal =>
              cases scanMemoryKey "SwapFree:" (cString buf) with
              | none => exact ⟨rfl, rfl, sized⟩
              | some swapFree => exact ⟨rfl, rfl, sized⟩

/-- The reading of one `update_system_info` call whose CPU stage is reached and succeeds. -/
def SystemFiles.cpuReading (files : SystemFiles) : Option CpuUsageTime :=
  if (getloadavgSysdep files.loadavg).isSome && memoryReadable files.meminfo files.arcstats then
    getCpuUsateTime files.stat files.stack
  else none

/-- What one call does to the CPU part: a successful CPU stage publishes against the stored
reading and stores its own, any other call keeps the stored reading. -/
theorem updateSystemInfo_spec (state : SystemState) (files : SystemFiles) :
    (match files.cpuReading with
      | none => (updateSystemInfo state files).2.si.cpu.old = state.si.cpu.old
      | some now => (updateSystemInfo state files).2.si.cpu =
          if state.si.cpu.old.total = 0 then unknownPercentages now
          else cpuPercentages state.si.cpu.old now) ∧
      (updateSystemInfo state files).2.globals.fixed = state.globals.fixed := by
  unfold updateSystemInfo SystemFiles.cpuReading
  cases getloadavgSysdep files.loadavg with
  | none => exact ⟨rfl, rfl⟩
  | some loadavg =>
      obtain ⟨outcome, kept, fixed⟩ := usedSystemMemorySysdep_spec files.meminfo files.arcstats
        { state with si.loadavg := loadavg }
      dsimp only
      rw [← outcome]
      generalize usedSystemMemorySysdep files.meminfo files.arcstats
        { state with si.loadavg := loadavg } = memory at kept fixed ⊢
      obtain ⟨succeeded, middle⟩ := memory
      have old : middle.si.cpu.old = state.si.cpu.old := congrArg SystemCpuUsage.old kept
      cases succeeded with
      | false => exact ⟨old, fixed⟩
      | true =>
          have stored : (memoryPercentages middle).si.cpu = state.si.cpu := kept
          have constant : (memoryPercentages middle).globals.fixed = state.globals.fixed := fixed
          cases reading : getCpuUsateTime files.stat files.stack with
          | none =>
              simp only [usedSystemCpuSysdep, reading]
              exact ⟨old, fixed⟩
          | some now =>
              simp only [usedSystemCpuSysdep_success reading, stored]
              cases usedSystemFiledescriptorsSysdep files.fileNr
                  (memoryPercentages middle).si.filedescriptors with
              | mk matched filedescriptors => cases matched <;> exact ⟨rfl, constant⟩

def afterUpdates (globals : Globals) (unameSucceeds : Bool) (calls : List SystemFiles) : SystemState :=
  Loop.run (fun state files => (updateSystemInfo state files).2)
    ⟨globals, (initSystemInfo unameSucceeds).2⟩ calls

def lastReading (calls : List SystemFiles) : Option CpuUsageTime :=
  (calls.filterMap SystemFiles.cpuReading).getLast?

theorem lastReading_concat (calls : List SystemFiles) (files : SystemFiles) :
    lastReading (calls ++ [files]) = (files.cpuReading <|> lastReading calls) := by
  cases reading : files.cpuReading with
  | none => simp [lastReading, List.filterMap_append, reading]
  | some now => simp [lastReading, List.filterMap_append, reading]

section Run

variable (globals : Globals) (unameSucceeds : Bool)

theorem afterUpdates_concat (calls : List SystemFiles) (files : SystemFiles) :
    afterUpdates globals unameSucceeds (calls ++ [files]) =
      (updateSystemInfo (afterUpdates globals unameSucceeds calls) files).2 :=
  Loop.run_concat _ calls files

theorem afterUpdates_fixed (calls : List SystemFiles) :
    (afterUpdates globals unameSucceeds calls).globals.fixed = globals.fixed := by
  refine Loop.run_invariant (fun state : SystemState => state.globals.fixed = globals.fixed) rfl ?_ calls
  intro state files constant
  exact (updateSystemInfo_spec state files).2.trans constant

theorem afterUpdates_old (calls : List SystemFiles) :
    (afterUpdates globals unameSucceeds calls).si.cpu.old = (lastReading calls).getD {} := by
  induction calls using List.reverseRecOn with
  | nil => cases unameSucceeds <;> rfl
  | append_singleton calls files ih =>
      have stage := (updateSystemInfo_spec (afterUpdates globals unameSucceeds calls) files).1
      rw [afterUpdates_concat, lastReading_concat]
      cases reading : files.cpuReading with
      | none =>
          rw [reading] at stage
          exact stage.trans ih
      | some now =>
          rw [reading] at stage
          dsimp only at stage
          rw [stage]
          split <;> rfl

end Run

/-! The ten parts of the total. -/

/-- The sum behind `total`: guest time is counted inside `user` and `nice` already. -/
def CpuUsageTime.ticks (time : CpuUsageTime) : Nat :=
  time.user + time.nice + time.system + time.idle + time.iowait + time.hardirq + time.softirq +
    time.steal

theorem getCpuUsateTime_total {stat : FileRead} {stack now : CpuUsageTime}
    (reading : getCpuUsateTime stat stack = some now) : now.total = now.ticks % 2 ^ 64 := by
  unfold getCpuUsateTime at reading
  split at reading
  · cases reading
  · obtain ⟨time, _, rfl⟩ := Option.map_eq_some_iff.mp reading
    rfl

theorem cpuReading_total {files : SystemFiles} {now : CpuUsageTime}
    (reading : files.cpuReading = some now) : now.total = now.ticks % 2 ^ 64 := by
  unfold SystemFiles.cpuReading at reading
  split at reading
  · exact getCpuUsateTime_total reading
  · cases reading

theorem lastReading_total {calls : List SystemFiles} {old : CpuUsageTime}
    (last : lastReading calls = some old) : old.total = old.ticks % 2 ^ 64 := by
  obtain ⟨files, _, reading⟩ := List.mem_filterMap.mp (List.mem_of_getLast? last)
  exact cpuReading_total reading

/-- Total grew without overflow, guest time is within user time, and no counter went back. -/
structure Advanced (old now : CpuUsageTime) : Prop where
  grew : old.total < now.total
  oldFits : old.ticks < 2 ^ 64
  nowFits : now.ticks < 2 ^ 64
  oldGuest : old.guest ≤ old.user
  nowGuest : now.guest ≤ now.user
  oldGuestNice : old.guestNice ≤ old.nice
  nowGuestNice : now.guestNice ≤ now.nice
  user : old.user - old.guest ≤ now.user - now.guest
  nice : old.nice - old.guestNice ≤ now.nice - now.guestNice
  guest : old.guest ≤ now.guest
  guestNice : old.guestNice ≤ now.guestNice
  system : old.system ≤ now.system
  idle : old.idle ≤ now.idle
  iowait : old.iowait ≤ now.iowait
  hardirq : old.hardirq ≤ now.hardirq
  softirq : old.softirq ≤ now.softirq
  steal : old.steal ≤ now.steal

theorem wrap64_sub {first second : Nat} (small : first < 2 ^ 64) (ordered : second ≤ first) :
    wrap64 (first - second) = first - second := by
  unfold wrap64
  omega

def CpuUsageTime.netCounters (time : CpuUsageTime) : List Nat :=
  [time.user - time.guest, time.nice - time.guestNice, time.system, time.idle,
    time.iowait, time.hardirq, time.softirq, time.steal, time.guest, time.guestNice]

theorem counters_net {time : CpuUsageTime} (fits : time.ticks < 2 ^ 64)
    (guest : time.guest ≤ time.user) (guestNice : time.guestNice ≤ time.nice) :
    time.counters = time.netCounters := by
  unfold CpuUsageTime.ticks at fits
  have user : wrap64 (time.user - time.guest) = time.user - time.guest :=
    wrap64_sub (by omega) guest
  have nice : wrap64 (time.nice - time.guestNice) = time.nice - time.guestNice :=
    wrap64_sub (by omega) guestNice
  simp only [CpuUsageTime.counters, CpuUsageTime.netCounters, user, nice]

theorem netCounters_sum {time : CpuUsageTime} (guest : time.guest ≤ time.user)
    (guestNice : time.guestNice ≤ time.nice) : time.netCounters.sum = time.ticks := by
  simp only [CpuUsageTime.netCounters, CpuUsageTime.ticks, List.sum_cons, List.sum_nil]
  omega

theorem zipWith_sum {first second : List Nat} (length : first.length = second.length) (total : ℚ) :
    (List.zipWith (fun previous current : Nat => ((current : ℚ) - previous) / total * 100) first second).sum =
      ((second.sum : ℚ) - first.sum) / total * 100 := by
  induction first generalizing second with
  | nil =>
      have empty : second = [] := List.length_eq_zero_iff.mp length.symm
      simp [empty]
  | cons previous first ih =>
      cases second with
      | nil => simp at length
      | cons current second =>
          simp only [List.zipWith_cons_cons, List.sum_cons, Nat.cast_add, ih (by simpa using length)]
          ring

/-- The shares of the ticks between two readings, in percent. -/
def shares (old now : CpuUsageTime) : List ℚ :=
  List.zipWith (fun previous current : Nat =>
    ((current : ℚ) - previous) / ((now.ticks : ℚ) - old.ticks) * 100) old.netCounters now.netCounters

section Shares

variable {old now : CpuUsageTime} (advanced : Advanced old now)
  (oldTotal : old.total = old.ticks % 2 ^ 64) (nowTotal : now.total = now.ticks % 2 ^ 64)

include advanced

theorem Advanced.forward : ∀ pair ∈ old.netCounters.zip now.netCounters, pair.1 ≤ pair.2 := by
  simp [CpuUsageTime.netCounters, advanced.user, advanced.nice, advanced.guest, advanced.guestNice,
    advanced.system, advanced.idle, advanced.iowait, advanced.hardirq, advanced.softirq,
    advanced.steal]

include oldTotal nowTotal

theorem Advanced.ticks_lt : old.ticks < now.ticks := by
  have grew := advanced.grew
  rw [Nat.mod_eq_of_lt advanced.oldFits] at oldTotal
  rw [Nat.mod_eq_of_lt advanced.nowFits] at nowTotal
  omega

theorem Advanced.elapsed_eq : elapsed old now = now.ticks - old.ticks := by
  have grew := advanced.ticks_lt oldTotal nowTotal
  have small := advanced.nowFits
  rw [Nat.mod_eq_of_lt advanced.oldFits] at oldTotal
  rw [Nat.mod_eq_of_lt small] at nowTotal
  rw [elapsed, wrap64_sub (by omega) (by omega), oldTotal, nowTotal]

theorem cpuPercentages_shares : (cpuPercentages old now).percentages = (shares old now).map some := by
  have oldNet := counters_net advanced.oldFits advanced.oldGuest advanced.oldGuestNice
  have nowNet := counters_net advanced.nowFits advanced.nowGuest advanced.nowGuestNice
  have grew := advanced.ticks_lt oldTotal nowTotal
  have span := advanced.elapsed_eq oldTotal nowTotal
  have spanCast : ((elapsed old now : Nat) : ℚ) = now.ticks - old.ticks := by
    rw [span, Nat.cast_sub grew.le]
  rw [cpuPercentages_counters, oldNet, nowNet, shares, ← List.map_uncurry_zip_eq_zipWith,
    ← List.map_uncurry_zip_eq_zipWith, List.map_map]
  refine List.map_congr_left fun pair member => ?_
  have published := usagePercent_forward (advanced.forward pair member)
    (show 0 < elapsed old now by omega)
  rw [spanCast] at published
  exact spanCast.symm ▸ published

theorem shares_partition : (∀ value ∈ shares old now, 0 ≤ value) ∧ (shares old now).sum = 100 := by
  have grew := advanced.ticks_lt oldTotal nowTotal
  have oldSum := netCounters_sum advanced.oldGuest advanced.oldGuestNice
  have nowSum := netCounters_sum advanced.nowGuest advanced.nowGuestNice
  constructor
  · rw [shares, ← List.map_uncurry_zip_eq_zipWith, List.forall_mem_map]
    intro pair member
    have share := share_nonneg (advanced.forward pair member) (now.ticks - old.ticks)
    rwa [Nat.cast_sub grew.le] at share
  · have sameLength : old.netCounters.length = now.netCounters.length := rfl
    have divisor : (now.ticks : ℚ) - old.ticks ≠ 0 := by
      have larger : (old.ticks : ℚ) < now.ticks := by exact_mod_cast grew
      linarith
    rw [shares, zipWith_sum sameLength, oldSum, nowSum, div_self divisor, one_mul]

theorem cpuPercentages_partition :
    ∃ values : List ℚ, (cpuPercentages old now).percentages = values.map some ∧
      (∀ value ∈ values, 0 ≤ value) ∧ values.sum = 100 :=
  ⟨shares old now, cpuPercentages_shares advanced oldTotal nowTotal,
    shares_partition advanced oldTotal nowTotal⟩

end Shares

def AllUnknown (cpu : SystemCpuUsage) : Prop := ∀ percentage ∈ cpu.percentages, percentage = some (-1)

theorem unknownPercentages_unknown (now : CpuUsageTime) : AllUnknown (unknownPercentages now) := by
  simp [AllUnknown, SystemCpuUsage.percentages, unknownPercentages]

theorem afterUpdates_percentages (globals : Globals) (unameSucceeds : Bool) (done : List SystemFiles)
    (call : SystemFiles) (now : CpuUsageTime) (reading : call.cpuReading = some now) :
    (afterUpdates globals unameSucceeds done).si.cpu.old = (lastReading done).getD {} ∧
    (lastReading done = none → AllUnknown (afterUpdates globals unameSucceeds (done ++ [call])).si.cpu) ∧
    ∀ baseline, lastReading done = some baseline →
      (baseline.total = 0 → AllUnknown (afterUpdates globals unameSucceeds (done ++ [call])).si.cpu) ∧
      (baseline.total ≠ 0 →
        (afterUpdates globals unameSucceeds (done ++ [call])).si.cpu = cpuPercentages baseline now ∧
        (Advanced baseline now → ∃ values : List ℚ,
          (afterUpdates globals unameSucceeds (done ++ [call])).si.cpu.percentages = values.map some ∧
          (∀ value ∈ values, 0 ≤ value) ∧ values.sum = 100)) := by
  have old := afterUpdates_old globals unameSucceeds done
  have stage := (updateSystemInfo_spec (afterUpdates globals unameSucceeds done) call).1
  rw [reading, ← afterUpdates_concat, old] at stage
  dsimp only at stage
  refine ⟨old, ?_, ?_⟩
  · intro first
    rw [stage, first, if_pos (by rfl)]
    exact unknownPercentages_unknown now
  · intro baseline last
    rw [stage, last, Option.getD_some]
    refine ⟨?_, ?_⟩
    · intro empty
      rw [if_pos empty]
      exact unknownPercentages_unknown now
    · intro nonzero
      rw [if_neg nonzero]
      exact ⟨rfl, fun advanced =>
        cpuPercentages_partition advanced (lastReading_total last) (cpuReading_total reading)⟩

def sampleFiles (idle : String) : SystemFiles where
  loadavg := .content (bytes "0.25 1.5 2 1/99 7\n")
  meminfo := .content (bytes "MemTotal: 9 kB\nMemAvailable: 5 kB\nSwapTotal: 4 kB\nSwapFree: 4 kB\n")
  arcstats := none
  stat := sampleStat idle
  fileNr := none

theorem afterUpdates_percentages_sample :
    ∃ values : List ℚ,
      (afterUpdates zeroGlobals true [sampleFiles "94", sampleFiles "104"]).si.cpu.percentages =
        values.map some ∧ (∀ value ∈ values, 0 ≤ value) ∧ values.sum = 100 :=
  (((afterUpdates_percentages zeroGlobals true [sampleFiles "94"] (sampleFiles "104")
    { user := 4, system := 2, idle := 104, total := 110 } (by decide)).2.2
    { user := 4, system := 2, idle := 94, total := 100 } (by decide)).2 (by decide)).2
    (by constructor <;> decide)

end SimpleProcessMonitor
