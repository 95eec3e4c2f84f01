import Mathlib.Tactic.IntervalCases
import SimpleProcessMonitor.Library.CString

/-!
Decimal numbers as `printf` writes them, and what `sscanf` reads back: lines of numbers
separated by single spaces.
-/

namespace Decimal

open CString

def decimal (value : Nat) : Bytes :=
  (Nat.toDigits 10 value).map fun char => UInt8.ofNat char.toNat

def signedDecimal (value : Int) : Bytes :=
  if value < 0 then 45 :: decimal value.natAbs else decimal value.natAbs

theorem digitChar_byte {digit : Nat} (small : digit < 10) :
    (UInt8.ofNat (Nat.digitChar digit).toNat).toNat = 48 + digit := by
  interval_cases digit <;> rfl

theorem isdigit_iff (byte : UInt8) : isdigit byte = true ↔ 48 ≤ byte.toNat ∧ byte.toNat ≤ 57 := by
  simp [isdigit, UInt8.le_iff_toNat_le]

theorem decimal_eq (value : Nat) :
    decimal value = (if value < 10 then [] else decimal (value / 10)) ++
      [UInt8.ofNat (Nat.digitChar (value % 10)).toNat] := by
  unfold decimal
  rw [Nat.toDigits_eq_if (by decide)]
  split
  · rename_i small
    rw [Nat.mod_eq_of_lt small]
    rfl
  · rw [List.map_append]
    rfl

theorem decimal_length (value : Nat) :
    (decimal value).length = (if value < 10 then 0 else (decimal (value / 10)).length) + 1 := by
  rw [decimal_eq, List.length_append, List.length_singleton]
  split <;> rfl

theorem decimal_nonempty (value : Nat) : decimal value ≠ [] := by
  rw [decimal_eq]
  simp

theorem decimal_digits (value : Nat) : ∀ byte ∈ decimal value, isdigit byte = true := by
  induction value using Nat.strongRecOn with
  | ind value ih =>
      intro byte member
      rw [decimal_eq] at member
      rcases List.mem_append.mp member with front | last
      · split at front
        · cases front
        · exact ih (value / 10) (by omega) byte front
      · have digit := digitChar_byte (Nat.mod_lt value (by decide : 0 < 10))
        rw [List.mem_singleton.mp last, isdigit_iff, digit]
        omega

theorem digitsValue_append (digits : Bytes) (digit : UInt8) :
    digitsValue (digits ++ [digit]) = 10 * digitsValue digits + (digit.toNat - 48) := by
  simp [digitsValue]

theorem decimal_value (value : Nat) : digitsValue (decimal value) = value := by
  induction value using Nat.strongRecOn with
  | ind value ih =>
      rw [decimal_eq, digitsValue_append, digitChar_byte (Nat.mod_lt value (by decide : 0 < 10))]
      split
      · have empty : digitsValue [] = 0 := rfl
        omega
      · rw [ih (value / 10) (by omega)]
        omega

theorem decimal_short {digits value : Nat} (positive : 0 < digits) (below : value < 10 ^ digits) :
    (decimal value).length ≤ digits := by
  induction digits generalizing value with
  | zero => omega
  | succ digits ih =>
      rw [decimal_length]
      split
      · omega
      · rename_i large
        have quotient : value / 10 < 10 ^ digits := by
          rw [Nat.div_lt_iff_lt_mul (by decide)]
          rwa [Nat.pow_succ] at below
        have more : 0 < digits := by
          rcases Nat.eq_zero_or_pos digits with rfl | more
          · omega
          · exact more
        have shorter := ih more quotient
        omega

/-- No byte of a number is a NUL, a space, a parenthesis or any other separator. -/
theorem mem_signedDecimal {value : Int} {byte : UInt8} (member : byte ∈ signedDecimal value) :
    byte = 45 ∨ isdigit byte = true := by
  unfold signedDecimal at member
  split at member
  · rcases List.mem_cons.mp member with sign | digit
    · exact Or.inl sign
    · exact Or.inr (decimal_digits _ byte digit)
  · exact Or.inr (decimal_digits _ byte member)

theorem signedDecimal_noSpace (value : Int) : 32 ∉ signedDecimal value := by
  intro member
  rcases mem_signedDecimal member with impossible | digit
  · cases impossible
  · cases digit

/-! Reading a number back. -/

def InRange : IntKind → Int → Prop
  | .int, value => -2 ^ 31 ≤ value ∧ value < 2 ^ 31
  | .long, value => -2 ^ 63 ≤ value ∧ value < 2 ^ 63
  | .ulong, value => 0 ≤ value ∧ value < 2 ^ 64

theorem signedDecimal_length_le {digits : Nat} {value : Int} (positive : 0 < digits)
    (below : value.natAbs < 10 ^ digits) : (signedDecimal value).length ≤ digits + 1 := by
  have short := decimal_short positive below
  unfold signedDecimal
  split
  · rw [List.length_cons]
    omega
  · omega

theorem signedDecimal_short {value : Int} (fits : InRange .int value) :
    (signedDecimal value).length ≤ 11 := by
  obtain ⟨lower, upper⟩ := fits
  exact signedDecimal_length_le (by decide) (by omega : value.natAbs < 10 ^ 10)

theorem convert_inRange {kind : IntKind} {value : Int} (fits : InRange kind value) :
    convert kind (decide (value < 0)) value.natAbs = value := by
  have signed : (if value < 0 then -(value.natAbs : Int) else value.natAbs) = value := by
    split <;> omega
  cases kind with
  | int =>
      obtain ⟨lower, upper⟩ := fits
      simp only [convert, decide_eq_true_eq, signed, wrapSigned, clampLong]
      omega
  | long =>
      obtain ⟨lower, upper⟩ := fits
      simp only [convert, decide_eq_true_eq, signed, clampLong]
      omega
  | ulong =>
      obtain ⟨lower, upper⟩ := fits
      simp only [convert, decide_eq_true_eq, signed]
      rw [if_pos (by omega)]
      omega

theorem scanInt_signedDecimal {kind : IntKind} {value : Int} {rest : Bytes}
    (stop : NoDigit rest) :
    scanInt kind (signedDecimal value ++ rest) =
      some (convert kind (decide (value < 0)) value.natAbs, rest) := by
  have nonempty := decimal_nonempty value.natAbs
  have digits := decimal_digits value.natAbs
  unfold signedDecimal
  split
  · rename_i negative
    rw [List.cons_append, scanInt_minus kind nonempty digits stop, decimal_value,
      decide_eq_true negative]
  · rename_i positive
    rw [scanInt_digits kind nonempty digits stop, decimal_value, decide_eq_false positive]

theorem atoi_signedDecimal {value : Int} (fits : InRange .int value) :
    atoi (signedDecimal value) = value := by
  have read := @scanInt_signedDecimal .int value [] (by simp [NoDigit])
  rw [List.append_nil, convert_inRange fits] at read
  rw [atoi, read]

theorem skipSpace_signedDecimal (value : Int) (rest : Bytes) :
    skipSpace (32 :: (signedDecimal value ++ rest)) = signedDecimal value ++ rest := by
  have dropped : skipSpace (32 :: (signedDecimal value ++ rest)) =
      skipSpace (signedDecimal value ++ rest) := rfl
  rw [dropped]
  cases text : signedDecimal value with
  | nil =>
      unfold signedDecimal at text
      split at text
      · cases text
      · exact absurd text (decimal_nonempty _)
  | cons first tail =>
      have member : first ∈ signedDecimal value := text ▸ List.mem_cons_self
      refine skipSpace_cons ?_ _
      rcases mem_signedDecimal member with rfl | digit
      · rfl
      · exact isspace_digit digit

/-! A row of numbers, each behind a space; the conversion of a number is a kind, or `none`
where the value is skipped. -/

abbrev Column := Option IntKind × Int

def columnDirectives (column : Column) : List Directive :=
  match column.1 with
  | none => [.space, .skip]
  | some kind => [.space, .int kind]

def columnText (column : Column) : Bytes := 32 :: signedDecimal column.2

def columnValue (column : Column) : Option Int := column.1.map fun _ => column.2

def Column.Fits (column : Column) : Prop := ∀ kind ∈ column.1, InRange kind column.2

theorem mem_columns {columns : List Column} {byte : UInt8}
    (member : byte ∈ columns.flatMap columnText) : byte = 32 ∨ byte = 45 ∨ isdigit byte = true := by
  obtain ⟨column, _, found⟩ := List.mem_flatMap.mp member
  rcases List.mem_cons.mp found with space | digit
  · exact Or.inl space
  · exact Or.inr (mem_signedDecimal digit)

def Stops (text : Bytes) : Prop := ∃ next rest, text = next :: rest ∧ isdigit next = false

theorem columns_stop (columns : List Column) {rest : Bytes} (stops : Stops rest) :
    Stops (columns.flatMap columnText ++ rest) := by
  cases columns with
  | nil => exact stops
  | cons column columns => exact ⟨32, _, rfl, rfl⟩

theorem sscanf_columns (columns : List Column) (fits : ∀ column ∈ columns, column.Fits)
    (directives : List Directive) {rest : Bytes} (stops : Stops rest) :
    sscanf (columns.flatMap columnDirectives ++ directives) (columns.flatMap columnText ++ rest) =
      columns.filterMap columnValue ++ sscanf directives rest := by
  induction columns with
  | nil => rfl
  | cons column columns ih =>
      obtain ⟨next, tail, after, stop⟩ := columns_stop columns stops
      have later := ih fun other member => fits other (List.mem_cons_of_mem _ member)
      obtain ⟨kind, value⟩ := column
      have text : ((kind, value) :: columns).flatMap columnText ++ rest =
          32 :: (signedDecimal value ++ next :: tail) := by
        rw [← after]
        simp [columnText]
      rw [text]
      cases kind with
      | none =>
          have directive : ((none, value) :: columns).flatMap columnDirectives ++ directives =
              .space :: .skip :: (columns.flatMap columnDirectives ++ directives) := rfl
          rw [directive, sscanf, skipSpace_signedDecimal, sscanf,
            scanInt_signedDecimal (noDigit_cons stop tail), ← after]
          exact later
      | some kind =>
          have directive : ((some kind, value) :: columns).flatMap columnDirectives ++ directives =
              .space :: .int kind :: (columns.flatMap columnDirectives ++ directives) := rfl
          have exact := convert_inRange (fits (some kind, value) List.mem_cons_self kind rfl)
          rw [directive, sscanf, skipSpace_signedDecimal, sscanf,
            scanInt_signedDecimal (noDigit_cons stop tail), exact, ← after]
          exact congrArg (value :: ·) later

end Decimal
