import SimpleProcessMonitor.LogChecks
import SimpleProcessMonitor.SystemImageChecks

/-!
The messages of a report: id, number and command line are read back from each of them, the
number to the nearest tenth and the command line as far as the buffer reaches. A newline in a
command line stays within its message.
-/

namespace SimpleProcessMonitor

open CString Decimal

/-! The conversion `%.1f`. -/

section Tenths

variable {value : ℚ}

theorem roundHalfEven_error (value : ℚ) : |(roundHalfEven value : ℚ) - value| ≤ 1 / 2 := by
  have lower := Rat.floor_le value
  have upper := Rat.lt_floor_add_one value
  rw [Int.cast_add, Int.cast_one] at upper
  unfold roundHalfEven
  dsimp only
  rw [abs_le]
  split
  · rename_i near
    constructor <;> linarith
  · rename_i half
    split
    · rw [Int.cast_add, Int.cast_one]
      constructor <;> linarith
    · rename_i middle
      split
      · constructor <;> linarith
      · rw [Int.cast_add, Int.cast_one]
        constructor <;> linarith

theorem roundHalfEven_nonneg (positive : 0 ≤ value) : 0 ≤ roundHalfEven value := by
  have floor : 0 ≤ value.floor := Rat.le_floor_iff.mpr (by exact_mod_cast positive)
  unfold roundHalfEven
  dsimp only
  split
  · exact floor
  · split
    · omega
    · split <;> omega

def tenths (value : ℚ) : Nat := (roundHalfEven (|value| * 10)).toNat

def nearestTenth (value : ℚ) : ℚ :=
  if value < 0 then -(tenths value / 10) else tenths value / 10

theorem tenths_cast (value : ℚ) : (tenths value : ℚ) = roundHalfEven (|value| * 10) := by
  have nonneg : 0 ≤ roundHalfEven (|value| * 10) := roundHalfEven_nonneg (by positivity)
  rw [tenths]
  exact_mod_cast Int.toNat_of_nonneg nonneg

theorem nearestTenth_error (value : ℚ) : |nearestTenth value - value| ≤ 1 / 20 := by
  have error := roundHalfEven_error (|value| * 10)
  rw [← tenths_cast, abs_le] at error
  rw [nearestTenth, abs_le]
  split
  · rename_i negative
    rw [abs_of_neg negative] at error
    constructor <;> linarith
  · rename_i positive
    rw [abs_of_nonneg (not_lt.mp positive)] at error
    constructor <;> linarith

theorem fixed1_eq (value : ℚ) : fixed1 value = (if value < 0 then [45] else []) ++
    (decimal (tenths value / 10) ++ 46 :: decimal (tenths value % 10)) := rfl

theorem digitsValue_tenths (count : Nat) :
    digitsValue (decimal (count / 10) ++ decimal (count % 10)) = count := by
  obtain ⟨ones, onesEq, onesValue⟩ := decimal_digit (Nat.mod_lt count (by decide : 0 < 10))
  rw [onesEq, digitsValue_append, decimal_value, onesValue]
  omega

def EndsNumber (rest : Bytes) : Prop :=
  ∃ first behind, rest = first :: behind ∧ isdigit first = false ∧ first ≠ 101 ∧ first ≠ 69

theorem EndsNumber.scanExponent {rest : Bytes} (ends : EndsNumber rest) :
    scanExponent rest = some (0, rest) := by
  obtain ⟨first, behind, rfl, -, lower, upper⟩ := ends
  simp [SimpleProcessMonitor.scanExponent, lower, upper]

theorem readSign_fixed1 (value : ℚ) {gap : Bytes} (blank : ∀ byte ∈ gap, isspace byte = true)
    (rest : Bytes) :
    readSign (skipSpace (gap ++ (fixed1 value ++ rest))) = (decide (value < 0),
      decimal (tenths value / 10) ++ 46 :: (decimal (tenths value % 10) ++ rest)) := by
  rw [skipSpace_append blank, fixed1_eq]
  by_cases negative : value < 0
  · rw [if_pos negative, decide_eq_true negative, List.singleton_append, List.cons_append,
      skipSpace_cons rfl, readSign, if_pos rfl]
    simp
  · have digits := readSign_digits (decimal_nonempty (tenths value / 10))
      (decimal_digits (tenths value / 10)) (46 :: (decimal (tenths value % 10) ++ rest))
    rw [if_neg negative, decide_eq_false negative, List.nil_append, List.append_assoc]
    exact digits

theorem scanDouble_fixed1 (value : ℚ) {gap rest : Bytes}
    (blank : ∀ byte ∈ gap, isspace byte = true) (ends : EndsNumber rest) :
    scanDouble (gap ++ (fixed1 value ++ rest)) = some (nearestTenth value, rest) := by
  have sign := readSign_fixed1 value blank rest
  have stop : NoDigit rest := by
    obtain ⟨first, behind, rfl, digit, -⟩ := ends
    exact noDigit_cons digit behind
  have whole := scanDigits_append (decimal_digits (tenths value / 10))
    (noDigit_cons (show isdigit 46 = false from rfl) (decimal (tenths value % 10) ++ rest))
  have fraction := scanDigits_append (decimal_digits (tenths value % 10)) stop
  have single : (decimal (tenths value % 10)).length = 1 := by
    obtain ⟨ones, onesEq, -⟩ := decimal_digit (Nat.mod_lt (tenths value) (by decide : 0 < 10))
    rw [onesEq]
    rfl
  have nonempty : decimal (tenths value / 10) ++ decimal (tenths value % 10) ≠ [] := by
    simp [decimal_nonempty]
  have digits := digitsValue_tenths (tenths value)
  have magnitude : (tenths value : ℚ) * 10 ^ ((0 : Int) - (1 : Nat)) = tenths value / 10 := by
    norm_num [zpow_neg]
    ring
  simp only [scanDouble, sign, whole, fraction, nonempty, if_false, ends.scanExponent,
    Option.map_some, digits, single, magnitude, decide_eq_true_eq, nearestTenth]

end Tenths

/-! The messages. -/

def percentUnit : Bytes := bytes "%  "

def mebibytesUnit : Bytes := bytes " MiB  "

def messageHead (unit : Bytes) (value : ℚ) (info : ProcessOrThreadInfo) : Bytes :=
  signedDecimal info.pid ++ bytes "  " ++ fixed1 value ++ unit

def messageText (unit : Bytes) (value : ℚ) (info : ProcessOrThreadInfo) : Bytes :=
  messageHead unit value info ++ cString info.cmdline ++ bytes "\n"

structure ReportMessage where
  pid : Int
  number : ℚ
  complete : Bool
  command : Bytes

/-- A message that was cut off ends with the mark and not with a newline, whatever its command
line holds. -/
def readMessage (unit message : Bytes) : Option ReportMessage := do
  let (pid, rest) ← scanInt .int message
  let (number, rest) ← scanDouble rest
  let behind := rest.drop unit.length
  if behind.getLast? = some 10 then some ⟨pid, number, true, behind.dropLast⟩
  else some ⟨pid, number, false, behind.take (behind.length - (bytes " [TRUNCATED]").length)⟩

def shownMessage (unit : Bytes) (value : ℚ) (info : ProcessOrThreadInfo) : ReportMessage where
  pid := info.pid
  number := nearestTenth value
  complete := (messageText unit value info).length < 4096
  command := (cString info.cmdline).take (4095 - (messageHead unit value info).length)

section Messages

variable {unit : Bytes} {value : ℚ} {info : ProcessOrThreadInfo}

theorem readMessage_head (ends : ∀ behind, EndsNumber (unit ++ behind)) (own : InRange .int info.pid)
    (behind : Bytes) :
    readMessage unit (messageHead unit value info ++ behind) =
      if behind.getLast? = some 10 then some ⟨info.pid, nearestTenth value, true, behind.dropLast⟩
      else some ⟨info.pid, nearestTenth value, false,
        behind.take (behind.length - (bytes " [TRUNCATED]").length)⟩ := by
  have shape : messageHead unit value info ++ behind =
      signedDecimal info.pid ++ (bytes "  " ++ (fixed1 value ++ (unit ++ behind))) := by
    simp only [messageHead, List.append_assoc]
  have pid : scanInt .int (signedDecimal info.pid ++
      (bytes "  " ++ (fixed1 value ++ (unit ++ behind)))) =
        some (info.pid, bytes "  " ++ (fixed1 value ++ (unit ++ behind))) := by
    have stop : NoDigit (bytes "  " ++ (fixed1 value ++ (unit ++ behind))) :=
      noDigit_cons (show isdigit 32 = false from rfl) (32 :: (fixed1 value ++ (unit ++ behind)))
    rw [scanInt_signedDecimal stop, convert_inRange own]
  have blank : ∀ byte ∈ bytes "  ", isspace byte = true := List.all_eq_true.mp (by decide)
  have number := scanDouble_fixed1 value blank (ends behind)
  rw [readMessage, shape, pid]
  simp only [Option.bind_eq_bind, Option.bind_some, number, List.drop_left]

/-- The message as a whole, and of one that is cut off what the buffer holds. -/
theorem readMessage_shown (ends : ∀ behind, EndsNumber (unit ++ behind)) (own : InRange .int info.pid)
    (formats : Formats (messageText unit value info)) (short : (messageHead unit value info).length ≤ 4095) :
    readMessage unit (formatAndLog (messageText unit value info)) = some (shownMessage unit value info) := by
  have fits : ¬2 ^ 31 ≤ (messageText unit value info).length := Nat.not_le.mpr formats
  have length : (messageText unit value info).length =
      (messageHead unit value info).length + (cString info.cmdline).length + 1 := by
    rw [messageText, List.length_append, List.length_append]
    rfl
  rw [formatAndLog, if_neg fits]
  by_cases long : 4096 ≤ (messageText unit value info).length
  · -- at least the newline is cut off
    have room : 4095 - (messageHead unit value info).length ≤ (cString info.cmdline).length := by omega
    have kept : (messageText unit value info).take 4095 = messageHead unit value info ++
        (cString info.cmdline).take (4095 - (messageHead unit value info).length) := by
      rw [messageText, List.append_assoc, List.take_append, List.take_of_length_le short,
        List.take_append_of_le_length room]
    have marked (front : Bytes) : (front ++ bytes " [TRUNCATED]").getLast? = some 93 := by
      rw [List.getLast?_append]
      rfl
    rw [if_pos long, kept, List.append_assoc, readMessage_head ends own, marked, if_neg (by decide),
      List.length_append, Nat.add_sub_cancel, List.take_left]
    simp [shownMessage, long]
  · have whole : (cString info.cmdline).take (4095 - (messageHead unit value info).length) =
        cString info.cmdline := List.take_of_length_le (by omega)
    have ended : (cString info.cmdline ++ bytes "\n").getLast? = some 10 := by
      rw [List.getLast?_append]
      rfl
    have newline : bytes "\n" = [10] := by decide
    rw [if_neg long, messageText, List.append_assoc, readMessage_head ends own, if_pos ended, newline,
      List.dropLast_concat]
    simp [shownMessage, whole, not_le.mp long]

end Messages

/-! The reports. -/

theorem percentUnit_ends (behind : Bytes) : EndsNumber (percentUnit ++ behind) :=
  ⟨37, _, rfl, rfl, by decide, by decide⟩

theorem mebibytesUnit_ends (behind : Bytes) : EndsNumber (mebibytesUnit ++ behind) :=
  ⟨32, _, rfl, rfl, by decide, by decide⟩

/-- The usages are in the ranges of their C types, `float` and `unsigned long long`. -/
structure Legible (info : ProcessOrThreadInfo) : Prop extends Printable info where
  cpuRange : |info.cpuUsage| < 2 ^ 128
  ramRange : info.ramUsage < 2 ^ 64

theorem tenths_lt {value : ℚ} (small : |value| < 2 ^ 128) : tenths value < 10 ^ 40 := by
  have error := roundHalfEven_error (|value| * 10)
  rw [← tenths_cast, abs_le] at error
  have bound : (tenths value : ℚ) < 10 ^ 40 := by
    have range : (2 : ℚ) ^ 128 * 10 + 1 < 10 ^ 40 := by norm_num
    linarith
  exact_mod_cast bound

theorem fixed1_short {value : ℚ} (small : |value| < 2 ^ 128) : (fixed1 value).length ≤ 52 := by
  have bound := tenths_lt small
  have whole := decimal_short (by decide : 0 < 40) (show tenths value / 10 < 10 ^ 40 by omega)
  have fraction := decimal_short (by decide : 0 < 10) (show tenths value % 10 < 10 ^ 10 by omega)
  rw [fixed1_eq, List.length_append, List.length_append, List.length_cons]
  split
  · rw [List.length_singleton]
    omega
  · rw [List.length_nil]
    omega

theorem messageHead_short {value : ℚ} {info : ProcessOrThreadInfo} {unit : Bytes}
    (own : InRange .int info.pid) (small : |value| < 2 ^ 128) (short : unit.length ≤ 6) :
    (messageHead unit value info).length ≤ 4095 := by
  have pid := signedDecimal_short own
  have number := fixed1_short small
  have gap : (bytes "  ").length = 2 := by decide
  simp only [messageHead, List.length_append, gap]
  omega

theorem toDouble_cast (value : Nat) : (toDouble value : ℚ) =
    roundHalfEven (value / 2 ^ (Nat.log2 value - 52)) * 2 ^ (Nat.log2 value - 52) := by
  have nonneg : 0 ≤ roundHalfEven (value / 2 ^ (Nat.log2 value - 52)) :=
    roundHalfEven_nonneg (by positivity)
  have whole : (((roundHalfEven (value / 2 ^ (Nat.log2 value - 52))).toNat : Nat) : ℚ) =
      roundHalfEven (value / 2 ^ (Nat.log2 value - 52)) := by
    exact_mod_cast Int.toNat_of_nonneg nonneg
  rw [toDouble, Nat.cast_mul, whole, Nat.cast_pow, Nat.cast_ofNat]

theorem toDouble_exact {value : Nat} (range : value < 2 ^ 53) : toDouble value = value := by
  have kept : Nat.log2 value - 52 = 0 := by
    by_cases zero : value = 0
    · rw [zero]
      decide
    · have bits := (Nat.log2_lt zero).mpr range
      omega
  have integral : roundHalfEven (value : ℚ) = value := by
    have floor : (value : ℚ).floor = value := Rat.floor_intCast value
    simp [roundHalfEven, floor]
  have cast := toDouble_cast value
  rw [kept, pow_zero, div_one, mul_one, integral] at cast
  exact_mod_cast cast

/-- Of at most 64 bits, at most 11 are dropped. -/
theorem toDouble_error {value : Nat} (range : value < 2 ^ 64) :
    |(toDouble value : ℚ) - value| ≤ 2 ^ 10 := by
  have dropped : Nat.log2 value - 52 ≤ 11 := by
    by_cases zero : value = 0
    · rw [zero]
      decide
    · have bits := (Nat.log2_lt zero).mpr range
      omega
  rw [toDouble_cast]
  generalize Nat.log2 value - 52 = bits at dropped
  have positive : (0 : ℚ) < 2 ^ bits := by positivity
  have small : (2 : ℚ) ^ bits ≤ 2 ^ 11 := pow_le_pow_right₀ (by norm_num) dropped
  have scaled : (roundHalfEven (value / 2 ^ bits) : ℚ) * 2 ^ bits - value =
      (roundHalfEven (value / 2 ^ bits) - value / 2 ^ bits) * 2 ^ bits := by
    rw [sub_mul, div_mul_cancel₀ _ positive.ne']
  calc |(roundHalfEven (value / 2 ^ bits) : ℚ) * 2 ^ bits - value|
      = |(roundHalfEven (value / 2 ^ bits) : ℚ) - value / 2 ^ bits| * 2 ^ bits := by
        rw [scaled, abs_mul, abs_of_pos positive]
    _ ≤ 1 / 2 * 2 ^ 11 := mul_le_mul (roundHalfEven_error _) small positive.le (by norm_num)
    _ = 2 ^ 10 := by norm_num

theorem mebibytes_exact {size : Nat} (range : size < 2 ^ 53) :
    mebibytes size = size / (1024 * 1024) := by
  rw [mebibytes, toDouble_exact range]

theorem mebibytes_error {size : Nat} (range : size < 2 ^ 64) :
    |mebibytes size - size / (1024 * 1024)| ≤ 1 / 1000 := by
  have error := toDouble_error range
  rw [mebibytes, ← sub_div, abs_div, abs_of_pos (by norm_num : (0 : ℚ) < 1024 * 1024),
    div_le_iff₀ (by norm_num)]
  linarith

/-- Beyond 2^53 bytes a tenth can be off: the exact quotient is 8796093022208.0499... -/
example : fixed1 (mebibytes 9223372036854828236) = bytes "8796093022208.1" := by decide +kernel

theorem mebibytes_small {size : Nat} (range : size < 2 ^ 64) : |mebibytes size| < 2 ^ 128 := by
  have error := mebibytes_error range
  have bound : (size : ℚ) < 2 ^ 64 := by exact_mod_cast range
  have nonneg : (0 : ℚ) ≤ size := Nat.cast_nonneg size
  rw [abs_le] at error
  rw [abs_lt]
  constructor <;> linarith

namespace Legible

variable {info : ProcessOrThreadInfo}

theorem cpuLine (legible : Legible info) :
    readMessage percentUnit (formatAndLog (cpuText info)) =
      some (shownMessage percentUnit info.cpuUsage info) :=
  readMessage_shown percentUnit_ends legible.pid legible.cpu
    (messageHead_short legible.pid legible.cpuRange (by decide))

theorem ramLine (legible : Legible info) :
    readMessage mebibytesUnit (formatAndLog (ramText info)) =
      some (shownMessage mebibytesUnit (mebibytes info.ramUsage) info) :=
  readMessage_shown mebibytesUnit_ends legible.pid legible.ram
    (messageHead_short legible.pid (mebibytes_small legible.ramRange) (by decide))

/-- The usage is a `double` before it is printed, exact below 2^53 bytes. -/
theorem ramNumber (legible : Legible info) :
    |(shownMessage mebibytesUnit (mebibytes info.ramUsage) info).number -
      info.ramUsage / (1024 * 1024)| ≤ if info.ramUsage < 2 ^ 53 then 1 / 20 else 51 / 1000 := by
  have printed := nearestTenth_error (mebibytes info.ramUsage)
  change |nearestTenth (mebibytes info.ramUsage) - _| ≤ _
  split
  · rename_i exactRange
    rwa [mebibytes_exact exactRange] at printed ⊢
  · have converted := mebibytes_error legible.ramRange
    have both := abs_sub_le (nearestTenth (mebibytes info.ramUsage)) (mebibytes info.ramUsage)
      (info.ramUsage / (1024 * 1024))
    linarith

end Legible

/-! What is shorter than 2^31 bytes with the numbers before it. -/

theorem messageText_length {unit : Bytes} {value : ℚ} {info : ProcessOrThreadInfo}
    (own : InRange .int info.pid) (small : |value| < 2 ^ 128) (short : unit.length ≤ 6)
    (room : info.cmdline.length ≤ 2 ^ 31 - 101) : (messageText unit value info).length < 2 ^ 31 := by
  have pid := signedDecimal_short own
  have number := fixed1_short small
  have gap : (bytes "  ").length = 2 := by decide
  have newline : (bytes "\n").length = 1 := by decide
  have command : (cString info.cmdline).length ≤ info.cmdline.length :=
    (List.takeWhile_sublist _).length_le
  simp only [messageText, messageHead, List.length_append, gap, newline]
  omega

theorem Legible.of_short {info : ProcessOrThreadInfo} (own : InRange .int info.pid)
    (cpuRange : |info.cpuUsage| < 2 ^ 128) (ramRange : info.ramUsage < 2 ^ 64)
    (room : info.cmdline.length ≤ 2 ^ 31 - 101) : Legible info where
  pid := own
  cpu := messageText_length own cpuRange (show percentUnit.length ≤ 6 by decide) room
  ram := messageText_length own (mebibytes_small ramRange)
    (show mebibytesUnit.length ≤ 6 by decide) room
  cpuRange := cpuRange
  ramRange := ramRange

theorem readMessage_word {unit message : Bytes} {first : UInt8} {rest : Bytes}
    (begins : message = first :: rest) (visible : isspace first = false)
    (noDigit : isdigit first = false) (noSign : first ≠ 45 ∧ first ≠ 43) :
    readMessage unit message = none := by
  have absent : scanInt .int message = none := by
    rw [scanInt_none_iff, begins, skipSpace_cons visible, readSign, if_neg noSign.1, if_neg noSign.2,
      List.takeWhile_cons, noDigit]
    rfl
  rw [readMessage, absent]
  rfl

theorem firstWord_begins {message word : Bytes} {first : UInt8}
    (read : firstWord message = first :: word) : ∃ rest, message = first :: rest := by
  cases message with
  | nil => cases read
  | cons byte rest =>
      rw [firstWord, List.takeWhile_cons] at read
      split at read
      · exact ⟨rest, congrArg (· :: rest) (List.cons.inj read).1⟩
      · cases read

theorem readMessage_header (unit : Bytes) {message : Bytes}
    (word : firstWord message = bytes "Top" ∨ firstWord message = bytes "Process") :
    readMessage unit message = none := by
  rcases word with word | word
  · obtain ⟨rest, begins⟩ : ∃ rest, message = 84 :: rest := firstWord_begins word
    exact readMessage_word begins rfl rfl (by decide)
  · obtain ⟨rest, begins⟩ : ∃ rest, message = 80 :: rest := firstWord_begins word
    exact readMessage_word begins rfl rfl (by decide)

theorem readMessage_newline (unit : Bytes) : readMessage unit (bytes "\n") = none := by
  have absent : scanInt .int (bytes "\n") = none := by decide
  rw [readMessage, absent]
  rfl

theorem shownMessage_complete {unit : Bytes} {value : ℚ} {info : ProcessOrThreadInfo}
    (complete : (shownMessage unit value info).complete = true) :
    (shownMessage unit value info).command = cString info.cmdline := by
  have fits : (messageText unit value info).length < 4096 := by simpa [shownMessage] using complete
  rw [messageText, List.length_append, List.length_append] at fits
  exact List.take_of_length_le (by omega)

/-- Read message by message, the reports give back what was printed: the ids, the numbers to the
nearest tenth, and the command lines, which are marked where the buffer cut them off. -/
theorem messages_read (pid : Int) (memorySize : Nat) {infos : List ProcessOrThreadInfo}
    {threadInfos : List (List ProcessOrThreadInfo)} (own : ∀ info ∈ infos, Legible info)
    (threads : ∀ slot ∈ threadInfos, ∀ info ∈ slot, Legible info)
    (cpuFormats : Formats (cpuHeader pid infos.length))
    (ramFormats : Formats (ramHeader pid memorySize infos.length)) :
    ((logTopCpu pid infos threadInfos).splitOn separator).map (List.map (readMessage percentUnit)) =
        [none] :: (cpuSections pid infos threadInfos
          (fun info => some (shownMessage percentUnit info.cpuUsage info)) ++ [[none]]) ∧
      ((logTopRam pid memorySize infos).splitOn separator).map (List.map (readMessage mebibytesUnit)) =
        [none] :: (ramSections pid infos
          (fun info => some (shownMessage mebibytesUnit (mebibytes info.ramUsage) info)) ++
            [[none]]) ∧
      ∀ info, Legible info →
        |(shownMessage percentUnit info.cpuUsage info).number - info.cpuUsage| ≤ 1 / 20 ∧
        |(shownMessage mebibytesUnit (mebibytes info.ramUsage) info).number -
          info.ramUsage / (1024 * 1024)| ≤ (if info.ramUsage < 2 ^ 53 then 1 / 20 else 51 / 1000) ∧
        ∀ unit value, (shownMessage unit value info).complete = true →
          (shownMessage unit value info).command = cString info.cmdline := by
  have ownPrintable : ∀ info ∈ infos, Printable info := fun info member =>
    (own info member).toPrintable
  have threadsPrintable : ∀ slot ∈ threadInfos, ∀ info ∈ slot, Printable info :=
    fun slot listed info member => (threads slot listed info member).toPrintable
  refine ⟨?_, ?_, fun info legible =>
    ⟨nearestTenth_error info.cpuUsage, legible.ramNumber, fun _ _ => shownMessage_complete⟩⟩
  · obtain ⟨word, clean⟩ := cpuHeader_message cpuFormats
    have separate := (cpuSections_read pid ownPrintable threadsPrintable).2
    have header := readMessage_header percentUnit (Or.inl word)
    rw [logTopCpu_sectioned, sectioned_splitOn clean separate]
    simp only [List.map_cons, List.map_append, List.map_nil, header, readMessage_newline]
    rw [cpuSections_map (fun info member => (own info member).cpuLine)
      fun slot listed info member => (threads slot listed info member).cpuLine]
  · obtain ⟨word, clean⟩ := ramHeader_message ramFormats
    have separate := (ramSections_read pid ownPrintable).2
    have begins : firstWord (formatAndLog (ramHeader pid memorySize infos.length)) = bytes "Top" ∨
        firstWord (formatAndLog (ramHeader pid memorySize infos.length)) = bytes "Process" := by
      rw [word]
      split
      · exact Or.inl rfl
      · exact Or.inr rfl
    have header := readMessage_header mebibytesUnit begins
    rw [logTopRam_sectioned, sectioned_splitOn clean separate]
    simp only [List.map_cons, List.map_append, List.map_nil, header, readMessage_newline]
    rw [ramSections_map fun info member => (own info member).ramLine]

theorem longInfo_legible : Legible longInfo where
  toPrintable := longInfo_printable
  cpuRange := by norm_num [longInfo]
  ramRange := by decide

/-- The usage 0.25 is printed as 0.2. -/
theorem messages_read_sample :
    ((logTopCpu allProcesses [longInfo] [[longInfo]]).splitOn separator).map
        (List.map fun message => (readMessage percentUnit message).map (·.number)) =
      [[none], [some (1 / 5)], [some (1 / 5)], [none]] := by
  have own : ∀ info ∈ [longInfo], Legible info := by
    simpa using longInfo_legible
  have threads : ∀ slot ∈ [[longInfo]], ∀ info ∈ slot, Legible info := by
    simpa using longInfo_legible
  have number : nearestTenth longInfo.cpuUsage = 1 / 5 := by decide +kernel
  obtain ⟨read, -⟩ := messages_read allProcesses 0 own threads (by unfold Formats; decide +kernel)
    (by unfold Formats; decide +kernel)
  have numbers := congrArg (List.map (List.map (Option.map (·.number)))) read
  rw [List.map_map] at numbers
  simpa [cpuSections, shownMessage, number, Function.comp_def] using numbers

end SimpleProcessMonitor
