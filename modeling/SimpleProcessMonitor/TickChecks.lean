import Mathlib.Algebra.BigOperators.Field
import Mathlib.Algebra.Order.BigOperators.Group.Finset
import SimpleProcessMonitor.UsageChecks

/-!
The published CPU usage in terms of clock ticks: those that the scan reads of a process
and those of the whole system.
-/

namespace SimpleProcessMonitor

/-- The processes that a scan accepts, each with the `Proc_T` its record is stored from. -/
def acceptedProcesses (sys : Sys) (pid : Int) : List GlobEntry → ProcT → List (GlobEntry × ProcT)
  | [], _ => []
  | entry :: rest, proc =>
      match parseMandatory sys entry.files { proc with data := setIds pid entry.path proc.data } with
      | (false, proc) => acceptedProcesses sys pid rest proc
      | (true, proc) => (entry, parseOptional entry.files proc) :: acceptedProcesses sys pid rest {}

theorem scanEntries_accepted (sys : Sys) (starttime pid : Int) (entries : List GlobEntry)
    (proc : ProcT) :
    scanEntries sys starttime pid entries proc = (acceptedProcesses sys pid entries proc).map
      fun accepted => storeRecord sys starttime pid accepted.1.files accepted.2 := by
  induction entries generalizing proc with
  | nil => rfl
  | cons entry rest ih =>
      simp only [scanEntries, scanEntry, acceptedProcesses]
      rcases parseMandatory sys entry.files { proc with data := setIds pid entry.path proc.data } with
        ⟨_ | _, parsed⟩
      · exact ih parsed
      · exact congrArg (_ :: ·) (ih {})

/-- `utime + stime`, in the arithmetic of `unsigned long`. -/
def ticks (proc : ProcT) : Int :=
  (proc.data.itemUtime + proc.data.itemStime) % 2 ^ 64

namespace InitCall

variable (sys : Sys) (call : InitCall)

def accepted : List (GlobEntry × ProcT) :=
  match call.scan.glob with
  | none => []
  | some entries => acceptedProcesses sys call.pid entries {}

theorem records_accepted : call.records sys = (call.accepted sys).map fun accepted =>
    storeRecord sys call.scan.starttime call.pid accepted.1.files accepted.2 := by
  unfold records accepted initprocesstreeSysdep
  cases call.scan.glob with
  | none => rfl
  | some entries => exact scanEntries_accepted sys call.scan.starttime call.pid entries {}

end InitCall

theorem storeRecord_ticks (sys : Sys) (starttime pid : Int) (files : ProcFiles) (proc : ProcT) :
    (storeRecord sys starttime pid files proc).cpuTime = ticks proc / sys.info.hz * 100 := rfl

def tickPair (sys : Sys) (last call : InitCall) (index : Nat) : Option (Int × Int) := do
  let after ← (call.accepted sys)[index]?
  let before ← (last.accepted sys).find? fun process => process.2.data.pid == after.2.data.pid
  return (ticks before.2, ticks after.2)

structure Continued (sys : Sys) (last call : InitCall) (index : Nat) (earlier later : Int) :
    Prop where
  present : tickPair sys last call index = some (earlier, later)
  forward : earlier ≤ later

theorem tickPair_present {sys : Sys} {last call : InitCall} {index : Nat} {earlier later : Int}
    (present : tickPair sys last call index = some (earlier, later)) :
    ∃ before after, (call.accepted sys)[index]? = some after ∧
      (last.accepted sys).find? (fun process => process.2.data.pid == after.2.data.pid) = some before ∧
      ticks before.2 = earlier ∧ ticks after.2 = later := by
  obtain ⟨after, read, found⟩ := Option.bind_eq_some_iff.mp present
  obtain ⟨before, baseline, same⟩ := Option.bind_eq_some_iff.mp found
  obtain ⟨earlierEq, laterEq⟩ := Prod.mk.inj (Option.some.inj same)
  exact ⟨before, after, read, baseline, earlierEq, laterEq⟩

section Pair

variable {sys : Sys} {done : List InitCall} {last call : InitCall}

/-- Two `ProcessTree_init` calls for all processes in a row, both successful, between which
the clock moved. -/
structure Consecutive (sys : Sys) (done : List InitCall) (last call : InitCall) : Prop where
  lastAll : last.pid = allProcesses
  callAll : call.pid = allProcesses
  lastSuccess : 0 < (last.init sys (afterInits sys done)).2
  callSuccess : 0 < (call.init sys (afterInits sys (done ++ [last]))).2
  moved : last.now sys < call.now sys

def publishedUsage (sys : Sys) (done : List InitCall) (last call : InitCall) (index : Nat) : ℚ :=
  (entryAt (visibleEntries (afterInits sys (done ++ [last] ++ [call]))) index).cpu.usage.self

theorem storeRecord_pid (sys : Sys) (starttime : Int) (files : ProcFiles) (proc : ProcT) :
    (storeRecord sys starttime allProcesses files proc).pid = proc.data.pid := by
  simp [storeRecord]

theorem Continued.cpuTime {index : Nat} {earlier later : Int}
    (lastAll : last.pid = allProcesses) (callAll : call.pid = allProcesses)
    (continued : Continued sys last call index earlier later) :
    ∃ record, (call.records sys)[index]? = some record ∧
      record.cpuTime = later / sys.info.hz * 100 ∧
      cpuTimeOf (last.records sys) record.pid = some (earlier / sys.info.hz * 100) := by
  obtain ⟨before, after, read, baseline, rfl, rfl⟩ := tickPair_present continued.present
  refine ⟨_, by rw [call.records_accepted, List.getElem?_map, read]; rfl,
    storeRecord_ticks sys call.scan.starttime call.pid after.1.files after.2, ?_⟩
  have search : ((fun record : ProcessRecord => record.pid == after.2.data.pid) ∘
      fun process : GlobEntry × ProcT =>
        storeRecord sys last.scan.starttime allProcesses process.1.files process.2) =
      fun process => process.2.data.pid == after.2.data.pid := by
    funext process
    simp only [Function.comp_apply, storeRecord_pid]
  rw [cpuTimeOf, last.records_accepted, lastAll, callAll, storeRecord_pid, List.find?_map, search,
    baseline]
  rfl

/-- The ticks of the process are scaled by `100 / hz`, those of the clock are not. -/
theorem publishedUsage_scaled (hz : 0 < sys.info.hz) (cpus : 0 < sys.info.cpuCount)
    (consecutive : Consecutive sys done last call) {index : Nat} {earlier later : Int}
    (continued : Continued sys last call index earlier later) :
    publishedUsage sys done last call index =
      100 * (later - earlier) / (call.now sys - last.now sys) * (100 / sys.info.hz) := by
  obtain ⟨record, read, usedTime, baseline⟩ :=
    continued.cpuTime consecutive.lastAll consecutive.callAll
  have sized := afterInits_sized sys (done ++ [last])
  rw [publishedUsage, afterInits_concat, InitCall.init_usage sized consecutive.callSuccess read,
    afterInits_concat]
  rcases last.init_view sys (afterInits sys done) with ⟨_, _, views, time, _⟩ | ⟨_, failed, _⟩
  · have positive : 0 ≤ (earlier : ℚ) / sys.info.hz * 100 := by
      obtain ⟨earlierRecord, member, _, timeEq⟩ := cpuTimeOf_mem baseline
      exact timeEq ▸ last.records_cpuTime sys hz earlierRecord member
    have forward : (earlier : ℚ) / sys.info.hz * 100 ≤ record.cpuTime := by
      have ordered : (earlier : ℚ) ≤ later := by exact_mod_cast continued.forward
      rw [usedTime]
      gcongr
    rw [views, time, cpuTimeOf_append, baseline, Option.some_or,
      usageSince_eq sys.info cpus call.pid positive, if_pos ⟨consecutive.moved, forward⟩, capped,
      if_pos consecutive.callAll, usedTime]
    have nonzero := hz.ne'
    field_simp
  · have success := consecutive.lastSuccess
    omega

theorem publishedUsage_rate_iff (hz : 0 < sys.info.hz) (cpus : 0 < sys.info.cpuCount)
    (consecutive : Consecutive sys done last call) {index : Nat} {earlier later : Int}
    (continued : Continued sys last call index earlier later) :
    publishedUsage sys done last call index =
        100 * (later - earlier) / (call.now sys - last.now sys) ↔
      sys.info.hz = 100 ∨ later = earlier := by
  have moved : 0 < call.now sys - last.now sys := sub_pos.mpr consecutive.moved
  have scale : 100 / sys.info.hz = 1 ↔ sys.info.hz = 100 := by
    rw [div_eq_one_iff_eq hz.ne']
    exact eq_comm
  have noTicks : 100 * ((later : ℚ) - earlier) / (call.now sys - last.now sys) = 0 ↔
      later = earlier := by
    rw [div_eq_zero_iff, or_iff_left moved.ne', mul_eq_zero, or_iff_right (by norm_num), sub_eq_zero]
    exact Int.cast_inj
  rw [publishedUsage_scaled hz cpus consecutive continued, mul_right_eq_self₀, scale, noTicks]

theorem InitCall.now_total (cpus : 0 < sys.info.cpuCount) (fits : sys.info.cpuCount < 2 ^ 31)
    {time : CpuUsageTime}
    (reading : getCpuUsateTime call.scan.procStat call.scan.stack = some time) :
    call.now sys = (((time.total : Int) / sys.info.cpuCount : Int) : ℚ) := by
  obtain ⟨cores, coresEq⟩ := Int.eq_ofNat_of_zero_le (le_of_lt cpus)
  have divisor : (sys.info.cpuCount % 2 ^ 64).toNat = cores := by
    rw [Int.emod_eq_of_lt (by omega) (by norm_num at fits ⊢; omega), coresEq, Int.toNat_natCast]
  simp only [InitCall.now, getNowSingleCoreCpuTime, reading, divisor]
  rw [coresEq]
  norm_cast

/-- The divisor is the difference of two quotients, which loses the remainders. -/
theorem publishedUsage_sum_le_iff (hz : sys.info.hz = 100) (cpus : 1 ≤ sys.info.cpuCount)
    (fits : sys.info.cpuCount < 2 ^ 31) (consecutive : Consecutive sys done last call)
    {first second : CpuUsageTime}
    (readFirst : getCpuUsateTime last.scan.procStat last.scan.stack = some first)
    (readSecond : getCpuUsateTime call.scan.procStat call.scan.stack = some second)
    (indices : Finset Nat) (earlier later : Nat → Int)
    (continued : ∀ index ∈ indices, Continued sys last call index (earlier index) (later index)) :
    ∑ index ∈ indices, publishedUsage sys done last call index ≤ 100 * sys.info.cpuCount ↔
      ∑ index ∈ indices, (later index - earlier index) + (second.total : Int) % sys.info.cpuCount ≤
        second.total - first.total + (first.total : Int) % sys.info.cpuCount := by
  have moved : 0 < call.now sys - last.now sys := sub_pos.mpr consecutive.moved
  have published : ∑ index ∈ indices, publishedUsage sys done last call index =
      100 * (((∑ index ∈ indices, (later index - earlier index) : Int) : ℚ) /
        (call.now sys - last.now sys)) := by
    rw [Int.cast_sum, Finset.sum_div, Finset.mul_sum]
    refine Finset.sum_congr rfl fun index member => ?_
    rw [publishedUsage_scaled (by rw [hz]; norm_num) (by omega) consecutive (continued index member),
      hz, div_self (by norm_num), mul_one, mul_div_assoc, Int.cast_sub]
  have span : call.now sys - last.now sys =
      (((second.total : Int) / sys.info.cpuCount - (first.total : Int) / sys.info.cpuCount : Int) : ℚ) := by
    rw [call.now_total (by omega) fits readSecond, last.now_total (by omega) fits readFirst,
      Int.cast_sub]
  have firstSplit := Int.mul_ediv_add_emod (first.total : Int) sys.info.cpuCount
  have secondSplit := Int.mul_ediv_add_emod (second.total : Int) sys.info.cpuCount
  rw [published, mul_le_mul_iff_right₀ (by norm_num), div_le_iff₀ moved, span]
  generalize ∑ index ∈ indices, (later index - earlier index) = used
  rw [← Int.cast_mul, Int.cast_le, Int.mul_sub]
  omega

end Pair

def tickCall (utime total : String) : InitCall where
  pid := allProcesses
  scan := sampleScan s!"cpu 0 0 0 {total}" [sampleProcess "/proc/1"
    s!"1 (sh) S 0 1 1 0 -1 4 1 2 3 4 {utime} 46 5 6 20 0 1 0 25 90 2 0 1 1 0 0 0 0 6 4 1 0 0 0 17 0"]

def rateSys (hz : ℚ) (cpuCount : Int) : Sys where
  info := ⟨4096, hz, cpuCount⟩
  hasIOStatistics := true

theorem tickCall_consecutive_rate :
    Consecutive (rateSys 250 1) [] (tickCall "4" "100") (tickCall "104" "200") :=
  ⟨rfl, rfl, by decide +kernel, by decide +kernel, by decide +kernel⟩

theorem tickCall_continued_rate :
    Continued (rateSys 250 1) (tickCall "4" "100") (tickCall "104" "200") 0 50 150 :=
  ⟨by decide +kernel, by decide⟩

theorem publishedUsage_rate_iff_sample :
    publishedUsage (rateSys 250 1) [] (tickCall "4" "100") (tickCall "104" "200") 0 =
        100 * ((150 : Int) - (50 : Int)) / ((tickCall "104" "200").now (rateSys 250 1) -
          (tickCall "4" "100").now (rateSys 250 1)) ↔
      (rateSys 250 1).info.hz = 100 ∨ (150 : Int) = 50 :=
  publishedUsage_rate_iff (by decide +kernel) (by decide) tickCall_consecutive_rate
    tickCall_continued_rate

theorem publishedUsage_otherRate :
    ¬∀ (sys : Sys) (done : List InitCall) (last call : InitCall) (index : Nat) (earlier later : Int),
      0 < sys.info.hz → 0 < sys.info.cpuCount → Consecutive sys done last call →
      Continued sys last call index earlier later →
      publishedUsage sys done last call index =
        100 * (later - earlier) / (call.now sys - last.now sys) := by
  intro claim
  have usage := claim (rateSys 250 1) [] (tickCall "4" "100") (tickCall "104" "200") 0 50 150
    (by decide +kernel) (by decide) tickCall_consecutive_rate tickCall_continued_rate
  revert usage
  decide +kernel

theorem tickCall_consecutive_cores :
    Consecutive (rateSys 100 2) [] (tickCall "4" "136") (tickCall "7" "139") :=
  ⟨rfl, rfl, by decide +kernel, by decide +kernel, by decide +kernel⟩

theorem tickCall_continued_cores :
    Continued (rateSys 100 2) (tickCall "4" "136") (tickCall "7" "139") 0 50 53 :=
  ⟨by decide +kernel, by decide⟩

theorem publishedUsage_sum_le_iff_sample :
    ∑ index ∈ {0}, publishedUsage (rateSys 100 2) [] (tickCall "4" "136") (tickCall "7" "139") index ≤
        100 * ((2 : Int) : ℚ) ↔
      ∑ _index ∈ {0}, ((53 : Int) - 50) + ((139 : Nat) : Int) % 2 ≤
        ((139 : Nat) : Int) - ((136 : Nat) : Int) + ((136 : Nat) : Int) % 2 :=
  publishedUsage_sum_le_iff rfl (by decide) (by decide) tickCall_consecutive_cores
    (show _ = some { idle := 136, total := 136 } by decide)
    (show _ = some { idle := 139, total := 139 } by decide) {0} (fun _ => 50) (fun _ => 53)
    (fun _ member => Finset.mem_singleton.mp member ▸ tickCall_continued_cores)

/-- On two cores three ticks of the system count as one, so a process that used them all is
published with 300 percent. -/
theorem publishedUsage_sum_exceeds :
    ¬∀ (sys : Sys) (done : List InitCall) (last call : InitCall) (first second : CpuUsageTime)
        (indices : Finset Nat) (earlier later : Nat → Int),
      sys.info.hz = 100 → 1 ≤ sys.info.cpuCount → sys.info.cpuCount < 2 ^ 31 →
      Consecutive sys done last call →
      getCpuUsateTime last.scan.procStat last.scan.stack = some first →
      getCpuUsateTime call.scan.procStat call.scan.stack = some second →
      first.total < second.total →
      (∀ index ∈ indices, Continued sys last call index (earlier index) (later index)) →
      ∑ index ∈ indices, (later index - earlier index) ≤ (second.total : Int) - first.total →
      ∑ index ∈ indices, publishedUsage sys done last call index ≤ 100 * sys.info.cpuCount := by
  intro claim
  have bound := claim (rateSys 100 2) [] (tickCall "4" "136") (tickCall "7" "139")
    { idle := 136, total := 136 } { idle := 139, total := 139 } {0} (fun _ => 50) (fun _ => 53)
    rfl (by decide) (by decide) tickCall_consecutive_cores (by decide) (by decide) (by decide)
    (fun _ member => Finset.mem_singleton.mp member ▸ tickCall_continued_cores) (by decide)
  rw [Finset.sum_singleton] at bound
  revert bound
  decide +kernel

end SimpleProcessMonitor
