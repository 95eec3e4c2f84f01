import SimpleProcessMonitor.Library.Decimal
import SimpleProcessMonitor.StrCore

/-! Which strings pass the assertions of `Str_parseInt` and `Str_parseLLong`. -/

namespace SimpleProcessMonitor

open CString Decimal

namespace Str

/-- White space, a sign and all the digits up to the first byte that is none. -/
structure Numeral (s : Bytes) (value : Int) (rest : Bytes) where
  blanks : Bytes
  sign : Bytes
  digits : Bytes
  text : s = blanks ++ (sign ++ (digits ++ rest))
  blank : ∀ byte ∈ blanks, isspace byte = true
  signed : sign = [] ∨ sign = [43] ∨ sign = [45]
  nonempty : digits ≠ []
  digit : ∀ byte ∈ digits, isdigit byte = true
  stop : NoDigit rest
  value_eq : value = if sign = [45] then -(digitsValue digits : Int) else digitsValue digits

def BeginsWith (s : Bytes) (value : Int) : Prop := ∃ rest, Nonempty (Numeral s value rest)

theorem noDigit_dropWhile (text : Bytes) : NoDigit (text.dropWhile isdigit) := by
  intro next head
  have stopped := List.head?_dropWhile_not isdigit text
  rw [Option.mem_def.mp head] at stopped
  simpa using stopped

theorem readSign_split (text : Bytes) :
    ∃ sign : Bytes, (sign = [] ∨ sign = [43] ∨ sign = [45]) ∧ text = sign ++ (readSign text).2 ∧
      ((readSign text).1 = true ↔ sign = [45]) := by
  cases text with
  | nil => exact ⟨[], Or.inl rfl, rfl, by simp [readSign]⟩
  | cons first text =>
      by_cases minus : first = 45
      · exact ⟨[45], by simp, by simp [readSign, minus], by simp [readSign, minus]⟩
      · by_cases plus : first = 43
        · exact ⟨[43], by simp, by simp [readSign, plus], by simp [readSign, plus]⟩
        · exact ⟨[], by simp, by simp [readSign, minus, plus], by simp [readSign, minus, plus]⟩

theorem decimalInteger_numeral {s : Bytes} {value : Int} {rest : Bytes}
    (read : decimalInteger s = some (value, rest)) : Nonempty (Numeral s value rest) := by
  obtain ⟨sign, signed, front, minus⟩ := readSign_split (skipSpace s)
  unfold decimalInteger at read
  dsimp only at read
  split at read
  · cases read
  · rename_i nonempty
    cases read
    refine ⟨⟨s.takeWhile isspace, sign, _, ?_, fun byte member => List.mem_takeWhile_imp member,
      signed, nonempty, fun byte member => List.mem_takeWhile_imp member, noDigit_dropWhile _, ?_⟩⟩
    · rw [List.takeWhile_append_dropWhile, ← front]
      exact (List.takeWhile_append_dropWhile).symm
    · simp only [minus]

theorem numeral_decimalInteger {s : Bytes} {value : Int} {rest : Bytes}
    (numeral : Numeral s value rest) : decimalInteger s = some (value, rest) := by
  obtain ⟨blanks, sign, digits, rfl, blank, signed, nonempty, digit, stop, rfl⟩ := numeral
  have read : readSign (skipSpace (blanks ++ (sign ++ (digits ++ rest)))) =
      (decide (sign = [45]), digits ++ rest) := by
    rw [skipSpace_append blank]
    rcases signed with rfl | rfl | rfl
    · obtain ⟨first, digits, rfl⟩ := List.exists_cons_of_ne_nil nonempty
      have head := digit first List.mem_cons_self
      rw [List.nil_append, List.cons_append, skipSpace_cons (isspace_digit head), readSign_digit head]
      rfl
    · rfl
    · rfl
  simp only [decimalInteger, read, takeWhile_digits digit stop, dropWhile_digits digit stop,
    nonempty, if_false, decide_eq_true_eq]

theorem beginsWith_iff (s : Bytes) (value : Int) :
    BeginsWith s value ↔ ∃ rest, decimalInteger s = some (value, rest) := by
  constructor
  · rintro ⟨rest, ⟨numeral⟩⟩
    exact ⟨rest, numeral_decimalInteger numeral⟩
  · rintro ⟨rest, read⟩
    exact ⟨rest, decimalInteger_numeral read⟩

theorem BeginsWith.unique {s : Bytes} {first second : Int} (one : BeginsWith s first)
    (other : BeginsWith s second) : first = second := by
  obtain ⟨_, read⟩ := (beginsWith_iff s first).mp one
  obtain ⟨_, again⟩ := (beginsWith_iff s second).mp other
  rw [read] at again
  cases again
  rfl

theorem Numeral.rest_ne {s : Bytes} {value : Int} {rest : Bytes} (numeral : Numeral s value rest) :
    rest ≠ s := by
  rintro rfl
  have size := congrArg List.length numeral.text
  have positive := List.length_pos_iff.mpr numeral.nonempty
  simp only [List.length_append] at size
  omega

theorem clampLong_eq_iff (value : Int) : clampLong value = value ↔ InRange .long value := by
  unfold clampLong InRange
  omega

theorem inRange_long {value : Int} (small : InRange .int value) : InRange .long value := by
  unfold InRange at small ⊢
  dsimp only at small ⊢
  omega

section Calls

variable (cast : Int → Int) {s : Bytes} (nonempty : s ≠ [])

include nonempty

theorem parse_unread (unread : decimalInteger s = none) : parse cast s = some (cast 0) := by
  simp [parse, nonempty, strtol, unread]

theorem parse_read {value : Int} {rest : Bytes} (read : decimalInteger s = some (value, rest)) :
    parse cast s = if clampLong value = value then none else some (cast (clampLong value)) := by
  obtain ⟨numeral⟩ := decimalInteger_numeral read
  have consumed := numeral.rest_ne
  simp [parse, nonempty, strtol, read, consumed]

end Calls

/-- The parser passes its assertions on exactly the strings that begin with an integer of its
type, and returns that integer. -/
def Parses (parser : Bytes → Option Int) (kind : IntKind) (s : Bytes) : Prop :=
  ∀ value, parser s = some value ↔ BeginsWith s value ∧ InRange kind value

section Laws

variable {cast : Int → Int} {kind : IntKind} {s : Bytes} (nonempty : s ≠ [])

include nonempty

theorem not_parses_unread (absent : ∀ value, ¬BeginsWith s value) : ¬Parses (parse cast) kind s := by
  have unread : decimalInteger s = none := by
    cases read : decimalInteger s with
    | none => rfl
    | some answer => exact absurd ((beginsWith_iff s answer.1).mpr ⟨answer.2, read⟩) (absent answer.1)
  intro parses
  exact absent _ ((parses _).mp (parse_unread cast nonempty unread)).1

theorem not_parses_outside (narrow : ∀ value, InRange kind value → InRange .long value) {value : Int}
    (begins : BeginsWith s value) (outside : ¬InRange .long value) :
    ¬Parses (parse cast) kind s := by
  obtain ⟨rest, read⟩ := (beginsWith_iff s value).mp begins
  have passed := parse_read cast nonempty read
  rw [if_neg ((clampLong_eq_iff value).not.mpr outside)] at passed
  intro parses
  obtain ⟨returned, fits⟩ := (parses _).mp passed
  exact outside (narrow value (returned.unique begins ▸ fits))

theorem parses_inside {value : Int} (begins : BeginsWith s value) (inside : InRange .long value) :
    Parses (parse cast) kind s ↔ ¬InRange kind value := by
  obtain ⟨rest, read⟩ := (beginsWith_iff s value).mp begins
  have failed := parse_read cast nonempty read
  rw [if_pos ((clampLong_eq_iff value).mpr inside)] at failed
  constructor
  · intro parses fits
    have passed := (parses value).mpr ⟨begins, fits⟩
    rw [failed] at passed
    cases passed
  · intro large other
    rw [failed]
    refine iff_of_false (by simp) ?_
    rintro ⟨returned, fits⟩
    exact large (returned.unique begins ▸ fits)

end Laws

/-- The assertion fails for every integer that fits into a `long`, and for no other string. -/
theorem parses_iff {s : Bytes} (nonempty : s ≠ []) :
    (Parses parseInt .int s ↔
      ∃ value, BeginsWith s value ∧ InRange .long value ∧ ¬InRange .int value) ∧
      ¬Parses parseLLong .long s := by
  by_cases begins : ∃ value, BeginsWith s value
  · obtain ⟨value, begins⟩ := begins
    by_cases inside : InRange .long value
    · refine ⟨(parses_inside nonempty begins inside).trans ⟨?_, ?_⟩, ?_⟩
      · intro large
        exact ⟨value, begins, inside, large⟩
      · rintro ⟨other, begins', _, large⟩
        exact begins'.unique begins ▸ large
      · exact fun parses => (parses_inside nonempty begins inside).mp parses inside
    · refine ⟨iff_of_false ?_ ?_, ?_⟩
      · exact not_parses_outside nonempty (fun _ => inRange_long) begins inside
      · rintro ⟨other, begins', long, _⟩
        exact inside (begins'.unique begins ▸ long)
      · exact not_parses_outside nonempty (fun _ => id) begins inside
  · have absent : ∀ value, ¬BeginsWith s value := not_exists.mp begins
    refine ⟨iff_of_false (not_parses_unread nonempty absent) ?_, not_parses_unread nonempty absent⟩
    rintro ⟨value, begins', _⟩
    exact absent value begins'

theorem parses_iff_sample :
    Parses parseInt .int [52, 50, 57, 52, 57, 54, 55, 50, 57, 54] ∧
      ¬Parses parseLLong .long [52, 50, 57, 52, 57, 54, 55, 50, 57, 54] := by
  have laws := parses_iff (s := [52, 50, 57, 52, 57, 54, 55, 50, 57, 54]) (by decide)
  have begins : BeginsWith [52, 50, 57, 52, 57, 54, 55, 50, 57, 54] 4294967296 :=
    (beginsWith_iff _ _).mpr ⟨[], by decide⟩
  have long : InRange .long 4294967296 := by
    unfold InRange
    decide
  have large : ¬InRange .int 4294967296 := by
    unfold InRange
    decide
  exact ⟨laws.1.mpr ⟨_, begins, long, large⟩, laws.2⟩

theorem parse_inverted :
    parseInt [52, 50] = none ∧ parseLLong [52, 50] = none ∧ parseInt [97, 98, 99] = some 0 ∧
      parseLLong [57, 57, 57, 57, 57, 57, 57, 57, 57, 57, 57, 57, 57, 57, 57, 57, 57, 57, 57, 57] =
        some (2 ^ 63 - 1) ∧
      ¬Parses parseInt .int [52, 50] ∧ ¬Parses parseLLong .long [52, 50] := by
  have begins : BeginsWith [52, 50] 42 := (beginsWith_iff _ _).mpr ⟨[], by decide⟩
  refine ⟨by decide, by decide, by decide, by decide, ?_, ?_⟩
  · intro parses
    have passed := (parses 42).mpr ⟨begins, by unfold InRange; decide⟩
    revert passed
    decide
  · intro parses
    have passed := (parses 42).mpr ⟨begins, by unfold InRange; decide⟩
    revert passed
    decide

end Str

end SimpleProcessMonitor
