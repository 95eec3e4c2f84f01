import SimpleProcessMonitor.SystemUsageChecks

/-!
The first line of `/proc/stat`: which numbers of counters are accepted, and what the reading
holds for each of them. The white space of the format also matches the ends of lines.
-/

namespace SimpleProcessMonitor

open CString

/-- A counter of the line with the blanks before it. -/
structure CpuCounter where
  gap : Bytes
  digits : Bytes
  separated : gap ≠ []
  blank : ∀ byte ∈ gap, isspace byte = true ∧ byte ≠ 10
  nonempty : digits ≠ []
  decimal : ∀ byte ∈ digits, isdigit byte = true
  range : digitsValue digits < 2 ^ 64

namespace CpuCounter

def text (counter : CpuCounter) : Bytes := counter.gap ++ counter.digits

def value (counter : CpuCounter) : Nat := digitsValue counter.digits

end CpuCounter

def cpuLine (counters : List CpuCounter) : Bytes :=
  bytes "cpu" ++ counters.flatMap CpuCounter.text

def usageOf (values : List Nat) : CpuUsageTime where
  user := values.getD 0 0
  nice := values.getD 1 0
  system := values.getD 2 0
  idle := values.getD 3 0
  iowait := values.getD 4 0
  hardirq := values.getD 5 0
  softirq := values.getD 6 0
  steal := values.getD 7 0
  guest := values.getD 8 0
  guestNice := values.getD 9 0
  total := (values.getD 0 0 + values.getD 1 0 + values.getD 2 0 + values.getD 3 0 +
    values.getD 4 0 + values.getD 5 0 + values.getD 6 0 + values.getD 7 0) % 2 ^ 64

def Accepted (count : Nat) : Prop :=
  count = 4 ∨ count = 5 ∨ count = 7 ∨ count = 8 ∨ count = 9 ∨ 10 ≤ count

instance (count : Nat) : Decidable (Accepted count) := by
  unfold Accepted
  infer_instance

theorem convert_ulong {value : Nat} (range : value < 2 ^ 64) :
    convert .ulong false value = value := by
  simp only [convert, if_pos range]
  norm_num
  omega

theorem noDigit_space {first : UInt8} (space : isspace first = true) (rest : Bytes) :
    NoDigit (first :: rest) := by
  refine noDigit_cons ?_ rest
  by_contra digit
  have visible := isspace_digit (by simpa using digit)
  rw [space] at visible
  cases visible

theorem noDigit_counters (counters : List CpuCounter) {following : Bytes} (stop : NoDigit following) :
    NoDigit (counters.flatMap CpuCounter.text ++ following) := by
  cases counters with
  | nil => exact stop
  | cons counter counters =>
      obtain ⟨first, gap, gapEq⟩ := List.exists_cons_of_ne_nil counter.separated
      have space := (counter.blank first (gapEq ▸ List.mem_cons_self)).1
      rw [List.flatMap_cons, CpuCounter.text, gapEq]
      exact noDigit_space space _

theorem noDigit_prefix {front text : Bytes} (isFront : front <+: text) (stop : NoDigit text) :
    NoDigit front := by
  cases front with
  | nil => simp [NoDigit]
  | cons first front =>
      obtain ⟨rest, rfl⟩ := isFront
      exact noDigit_cons (stop first rfl) front

theorem sscanf_counters (counters : List CpuCounter) {count : Nat} (few : counters.length ≤ count)
    {following : Bytes} (stop : NoDigit following)
    (absent : counters.length < count → scanInt .ulong following = none) :
    sscanf (List.replicate count [Directive.space, Directive.int .ulong]).flatten
        (counters.flatMap CpuCounter.text ++ following) =
      counters.map fun counter => (counter.value : Int) := by
  induction count generalizing counters with
  | zero =>
      obtain rfl : counters = [] := List.length_eq_zero_iff.mp (by omega)
      rfl
  | succ count ih =>
      rw [List.replicate_succ, List.flatten_cons, List.cons_append, List.cons_append, sscanf]
      cases counters with
      | nil =>
          have missing := absent (by simp)
          simp only [List.flatMap_nil, List.nil_append, sscanf, scanInt_skipSpace, missing, List.map_nil]
      | cons counter counters =>
          have blank := fun byte member => (counter.blank byte member).1
          have later := ih counters (by simpa using few) (fun fewer => absent (by simpa using fewer))
          have tail := noDigit_counters counters stop
          have read : scanInt .ulong (skipSpace (counter.gap ++ (counter.digits ++
              (counters.flatMap CpuCounter.text ++ following)))) =
                some ((counter.value : Int), counters.flatMap CpuCounter.text ++ following) := by
            rw [skipSpace_append blank, scanInt_skipSpace,
              scanInt_digits .ulong counter.nonempty counter.decimal tail, convert_ulong counter.range,
              CpuCounter.value]
          rw [List.flatMap_cons, CpuCounter.text, List.append_assoc, List.append_assoc, sscanf, read]
          exact congrArg (_ :: ·) later

theorem clearMissing_assign (values : List Nat) (few : values.length ≤ 10) (stack : CpuUsageTime) :
    (clearMissing values.length (assign cpuArguments (values.map fun value : Nat => (value : Int)) stack)).map
        (fun time => { time with total := (time.user + time.nice + time.system + time.idle +
          time.iowait + time.hardirq + time.softirq + time.steal) % 2 ^ 64 }) =
      if Accepted values.length then some (usageOf values) else none := by
  match values with
  | [] => rfl
  | [_] => rfl
  | [_, _] => rfl
  | [_, _, _] => rfl
  | [_, _, _, _] => rfl
  | [_, _, _, _, _] => rfl
  | [_, _, _, _, _, _] => rfl
  | [_, _, _, _, _, _, _] => rfl
  | [_, _, _, _, _, _, _, _] => rfl
  | [_, _, _, _, _, _, _, _, _] => rfl
  | [_, _, _, _, _, _, _, _, _, _] => rfl
  | _ :: _ :: _ :: _ :: _ :: _ :: _ :: _ :: _ :: _ :: _ :: _ =>
      simp only [List.length_cons] at few
      omega

theorem usageOf_take (values : List Nat) : usageOf (values.take 10) = usageOf values := by
  simp [usageOf]

theorem accepted_take (count : Nat) : Accepted (min 10 count) ↔ Accepted count := by
  unfold Accepted
  omega

/-- The buffer holds the first ten counters and a part of what stands behind them. -/
theorem cpuLine_seen (counters : List CpuCounter) (fits : (cpuLine (counters.take 10)).length ≤ 8191)
    (following : Bytes) :
    ∃ behind, behind <+: (counters.drop 10).flatMap CpuCounter.text ++ following ∧
      cString ((cpuLine counters ++ following).take (8192 - 1)) =
        bytes "cpu" ++ ((counters.take 10).flatMap CpuCounter.text ++ behind) := by
  have split : cpuLine counters ++ following = cpuLine (counters.take 10) ++
      ((counters.drop 10).flatMap CpuCounter.text ++ following) := by
    conv_lhs => rw [cpuLine, ← List.take_append_drop 10 counters, List.flatMap_append]
    simp only [cpuLine, List.append_assoc]
  have visible : 0 ∉ cpuLine (counters.take 10) := by
    rw [cpuLine, List.mem_append, not_or]
    refine ⟨by decide, ?_⟩
    intro member
    obtain ⟨counter, _, inText⟩ := List.mem_flatMap.mp member
    rcases List.mem_append.mp inText with inGap | inDigits
    · exact absurd (counter.blank 0 inGap).1 (by decide)
    · exact absurd (counter.decimal 0 inDigits) (by decide)
  refine ⟨cString (((counters.drop 10).flatMap CpuCounter.text ++ following).take (8191 -
    (cpuLine (counters.take 10)).length)), ?_, ?_⟩
  · exact (List.takeWhile_prefix _).trans (List.take_prefix _ _)
  · rw [split, List.take_append, List.take_of_length_le fits, cString_append visible, cpuLine,
      List.append_assoc]

theorem getCpuUsateTime_line (counters : List CpuCounter) {following : Bytes}
    (fits : (cpuLine (counters.take 10)).length ≤ 8191) (stop : NoDigit following)
    (absent : counters.length < 10 → scanInt .ulong following = none) (stack : CpuUsageTime) :
    getCpuUsateTime (.content (cpuLine counters ++ following)) stack =
      if Accepted counters.length then some (usageOf (counters.map CpuCounter.value)) else none := by
  obtain ⟨behind, part, seen⟩ := cpuLine_seen counters fits following
  have stopBehind := noDigit_prefix part (noDigit_counters (counters.drop 10) stop)
  have few : (counters.take 10).length ≤ 10 := List.length_take_le 10 counters
  have absentBehind : (counters.take 10).length < 10 → scanInt .ulong behind = none := by
    intro fewer
    have below : counters.length < 10 := by
      rw [List.length_take] at fewer
      omega
    have all : counters.drop 10 = [] := List.drop_eq_nil_iff.mpr below.le
    rw [all, List.flatMap_nil, List.nil_append] at part
    exact scanInt_none_prefix part (absent below)
  have values := sscanf_counters (counters.take 10) few stopBehind absentBehind
  have names : sscanf cpuFormat (bytes "cpu" ++ ((counters.take 10).flatMap CpuCounter.text ++ behind)) =
      sscanf (List.replicate 10 [Directive.space, Directive.int .ulong]).flatten
        ((counters.take 10).flatMap CpuCounter.text ++ behind) := rfl
  have assigned := clearMissing_assign ((counters.take 10).map CpuCounter.value)
    (by rw [List.length_map]; exact few) stack
  have usage : usageOf ((counters.take 10).map CpuCounter.value) =
      usageOf (counters.map CpuCounter.value) := by
    rw [List.map_take, usageOf_take]
  rw [List.map_map, List.length_map, List.length_take, usage] at assigned
  simp only [accepted_take] at assigned
  simp only [getCpuUsateTime, fileReadProc, seen, names, values, List.length_map, List.length_take]
  exact assigned

theorem getCpuUsateTime_counters (counters : List CpuCounter) (following : Bytes)
    (fits : (cpuLine (counters.take 10)).length ≤ 8191) (stop : NoDigit following)
    (absent : counters.length < 10 → scanInt .ulong following = none) :
    (∀ stack, getCpuUsateTime (.content (cpuLine counters ++ following)) stack =
      if Accepted counters.length then some (usageOf (counters.map CpuCounter.value)) else none) ∧
    ∀ (stat : FileRead) (stack : CpuUsageTime) (cpu : SystemCpuUsage),
      getCpuUsateTime stat stack = none →
        (usedSystemCpuSysdep stat stack cpu).1 = false ∧
          (usedSystemCpuSysdep stat stack cpu).2.old = cpu.old := by
  refine ⟨fun stack => getCpuUsateTime_line counters fits stop absent stack, ?_⟩
  intro stat stack cpu failed
  simp only [usedSystemCpuSysdep, failed, and_self]

theorem digitsValue_singleton (digit : UInt8) : digitsValue [digit] < 2 ^ 64 := by
  have small := digit.toNat_lt
  simp only [digitsValue, List.foldl_cons, List.foldl_nil]
  omega

def sampleCounter (digit : UInt8) (isDigit : isdigit digit = true) : CpuCounter where
  gap := [32]
  digits := [digit]
  separated := List.cons_ne_nil 32 []
  blank := List.forall_mem_singleton.mpr ⟨rfl, by decide⟩
  nonempty := List.cons_ne_nil digit []
  decimal := List.forall_mem_singleton.mpr isDigit
  range := digitsValue_singleton digit

def threeCounters : List CpuCounter :=
  [sampleCounter 49 rfl, sampleCounter 50 rfl, sampleCounter 51 rfl]

def fourCounters : List CpuCounter := threeCounters ++ [sampleCounter 52 rfl]

theorem getCpuUsateTime_counters_sample :
    getCpuUsateTime (.content (cpuLine fourCounters ++ bytes "\ncpu0 1 2 3 4\n")) { steal := 7 } =
      some { user := 1, nice := 2, system := 3, idle := 4, total := 10 } :=
  (getCpuUsateTime_counters fourCounters (bytes "\ncpu0 1 2 3 4\n") (by decide) (noDigit_cons rfl _)
    fun _ => rfl).1 { steal := 7 }

/-! The two ways in which a line of counters is not read as it stands: an empty line behind it,
and blanks in it that fill the buffer. -/

def wideGap : Bytes := List.replicate 8192 32

/-- The fourth counter stands behind the bytes that are read. -/
def wideCounter : CpuCounter :=
  { sampleCounter 52 rfl with
    gap := wideGap
    separated := List.cons_ne_nil 32 (List.replicate 8191 32)
    blank := fun _ member => List.eq_of_mem_replicate member ▸ ⟨rfl, by decide⟩ }

theorem getCpuUsateTime_take (text : Bytes) (stack : CpuUsageTime) :
    getCpuUsateTime (.content text) stack = getCpuUsateTime (.content (text.take 8191)) stack := by
  simp only [getCpuUsateTime, fileReadProc, List.take_take, Nat.min_self]

theorem wideCounter_cut (following : Bytes) (stack : CpuUsageTime) :
    getCpuUsateTime (.content (cpuLine (threeCounters ++ [wideCounter]) ++ following)) stack = none := by
  have length : (cpuLine threeCounters).length = 9 := rfl
  have front : (cpuLine (threeCounters ++ [wideCounter]) ++ following).take 8191 =
      cpuLine threeCounters ++ List.replicate 8182 32 := by
    have line : cpuLine (threeCounters ++ [wideCounter]) ++ following =
        cpuLine threeCounters ++ (wideGap ++ (wideCounter.digits ++ following)) := by
      simp only [cpuLine, List.flatMap_append, List.flatMap_singleton, CpuCounter.text,
        List.append_assoc]
      rfl
    have room : 8191 - 9 ≤ wideGap.length := by
      rw [wideGap, List.length_replicate]
      omega
    rw [line, List.take_append, List.take_of_length_le (by omega), length,
      List.take_append_of_le_length room, wideGap, List.take_replicate]
    rfl
  have blank : ∀ byte ∈ List.replicate 8182 (32 : UInt8), isspace byte = true :=
    fun _ member => List.eq_of_mem_replicate member ▸ rfl
  have unread : scanInt .ulong (List.replicate 8182 32) = none := by
    have skipped := skipSpace_append blank []
    rw [List.append_nil] at skipped
    rw [scanInt_none_iff, skipped]
    rfl
  have read := getCpuUsateTime_line threeCounters (by decide)
    (noDigit_cons (show isdigit 32 = false from rfl) (List.replicate 8181 32)) (fun _ => unread) stack
  rw [getCpuUsateTime_take, front]
  exact read

/-- Neither condition on the file can be left out: a number behind an empty line is read as a fifth counter
though all counters are in the buffer, and a fourth one behind the buffer is lost though no
number follows. -/
theorem cpuLine_crossed_and_cut :
    (¬∀ (counters : List CpuCounter) (next rest : Bytes) (stack : CpuUsageTime),
      (cpuLine counters).length ≤ 8191 → 10 ∉ next → scanInt .ulong next = none →
      getCpuUsateTime (.content (cpuLine counters ++ 10 :: (next ++ 10 :: rest))) stack =
        if Accepted counters.length then some (usageOf (counters.map CpuCounter.value)) else none) ∧
    ¬∀ (counters : List CpuCounter) (next : Bytes) (stack : CpuUsageTime),
      scanInt .ulong next = none →
      getCpuUsateTime (.content (cpuLine counters ++ 10 :: next)) stack =
        if Accepted counters.length then some (usageOf (counters.map CpuCounter.value)) else none := by
  constructor
  · intro claim
    have reading := claim fourCounters [] [53] {} (by decide) (by simp) rfl
    revert reading
    decide +kernel
  · intro claim
    have reading := claim (threeCounters ++ [wideCounter]) [] {} rfl
    have accepted : Accepted (threeCounters ++ [wideCounter]).length := (by decide : Accepted 4)
    rw [wideCounter_cut, if_pos accepted] at reading
    cases reading

end SimpleProcessMonitor
