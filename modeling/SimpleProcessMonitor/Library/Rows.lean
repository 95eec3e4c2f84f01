import SimpleProcessMonitor.Library.Decimal

/-!
Files of labelled counters, one in each line: `label`, a gap, a decimal number, a unit. A
reader searches a label with `strstr` and scans the number behind it, or goes through the
lines with `fgets`.
-/

namespace CString

open Decimal

structure Row where
  label : Bytes
  gap : Bytes
  value : Nat
  unit : Bytes

/-- A colon ends the label and stands nowhere else, and blanks keep the number apart. -/
structure Row.Plain (row : Row) : Prop where
  gapped : row.gap ≠ []
  blank : ∀ byte ∈ row.gap, byte = 32 ∨ byte = 9
  unitPlain : ∀ byte ∈ row.unit, byte ≠ 0 ∧ byte ≠ 10 ∧ byte ≠ 58
  unitStops : NoDigit (row.unit ++ [10])
  labelEnds : row.label.getLast? = some 58
  labelOnce : 58 ∉ row.label.dropLast
  labelVisible : 0 ∉ row.label

def Row.text (row : Row) : Bytes :=
  row.label ++ (row.gap ++ (decimal row.value ++ (row.unit ++ [10])))

def rowsText (rows : List Row) : Bytes :=
  rows.flatMap Row.text

theorem strstr_of_notMem {byte : UInt8} {needle text : Bytes} (inNeedle : byte ∈ needle)
    (absent : byte ∉ text) : strstr needle text = none := by
  induction text with
  | nil =>
      have nonempty : needle ≠ [] := List.ne_nil_of_mem inNeedle
      simp [strstr, nonempty]
  | cons first text ih =>
      have noStart : ¬needle <+: first :: text := fun start => absent (start.subset inNeedle)
      rw [strstr, if_neg noStart]
      exact ih fun member => absent (List.mem_cons_of_mem first member)

theorem strstr_found {needle text found : Bytes} (search : strstr needle text = some found) :
    needle <+: found ∧ found <:+ text := by
  induction text with
  | nil =>
      simp only [strstr] at search
      split at search
      · rename_i empty
        rw [← Option.some.inj search, empty]
        exact ⟨List.prefix_refl [], List.suffix_refl []⟩
      · cases search
  | cons first text ih =>
      simp only [strstr] at search
      split at search
      · rename_i start
        rw [← Option.some.inj search]
        exact ⟨start, List.suffix_refl _⟩
      · exact ⟨(ih search).1, (ih search).2.trans (List.suffix_cons first text)⟩

/-- What is not found in a text is not found in a part of it. -/
theorem strstr_none_noOccurrence {needle part text : Bytes} (inside : part <:+: text)
    (absent : strstr needle text = none) : strstr needle part = none := by
  have occurs : ∀ text : Bytes, needle <:+: text → strstr needle text ≠ none := by
    intro text
    induction text with
    | nil =>
        intro occurs
        simp [strstr, List.infix_nil.mp occurs]
    | cons first text ih =>
        intro occurs
        simp only [strstr]
        split
        · simp
        · rename_i noStart
          exact ih ((List.infix_cons_iff.mp occurs).resolve_left noStart)
  by_contra found
  obtain ⟨behind, search⟩ := Option.ne_none_iff_exists'.mp found
  obtain ⟨start, suffix⟩ := strstr_found search
  exact occurs text ((start.isInfix.trans suffix.isInfix).trans inside) absent

theorem decimal_plain {value : Nat} {byte : UInt8} (member : byte ∈ decimal value) :
    byte ≠ 0 ∧ byte ≠ 10 ∧ byte ≠ 58 := by
  have digit := decimal_digits value byte member
  refine ⟨?_, ?_, ?_⟩ <;> · rintro rfl; cases digit

theorem strstr_row {key : Bytes} {row : Row} (plain : row.Plain) (colon : 58 ∈ key)
    (noBlank : 32 ∉ key ∧ 9 ∉ key) (noNewline : 10 ∉ key)
    (elsewhere : strstr key row.label = none) (rest : Bytes) :
    strstr key (row.text ++ rest) = strstr key rest := by
  have nonempty : key ≠ [] := List.ne_nil_of_mem colon
  obtain ⟨first, gap, gapEq⟩ := List.exists_cons_of_ne_nil plain.gapped
  have firstBlank : first ∉ key := by
    rcases plain.blank first (gapEq ▸ List.mem_cons_self) with rfl | rfl
    · exact noBlank.1
    · exact noBlank.2
  have split : row.text ++ rest = row.label ++ first ::
      ((gap ++ (decimal row.value ++ row.unit)) ++ 10 :: rest) := by
    simp [Row.text, gapEq]
  have noColon : 58 ∉ gap ++ (decimal row.value ++ row.unit) := by
    intro member
    rcases List.mem_append.mp member with inGap | number
    · have listed : 58 ∈ row.gap := gapEq ▸ List.mem_cons_of_mem first inGap
      rcases plain.blank 58 listed with impossible | impossible <;> cases impossible
    · rcases List.mem_append.mp number with inNumber | inUnit
      · exact (decimal_plain inNumber).2.2 rfl
      · exact (plain.unitPlain 58 inUnit).2.2 rfl
  rw [split, strstr_separated firstBlank nonempty, elsewhere]
  simp only
  rw [strstr_separated noNewline nonempty, strstr_of_notMem colon noColon]

/-- The first row whose label holds the key has it as its label. -/
structure RowAt (rows : List Row) (key : Bytes) (row : Row) (before after : List Row) : Prop where
  split : rows = before ++ row :: after
  label : row.label = key
  first : ∀ other ∈ before, strstr key other.label = none

structure Key (key : Bytes) : Prop where
  ends : key.getLast? = some 58
  noSpace : 32 ∉ key
  noTab : 9 ∉ key
  noNewline : 10 ∉ key

theorem Key.colon {key : Bytes} (isKey : Key key) : 58 ∈ key :=
  List.mem_of_getLast? isKey.ends

theorem RowAt.strstr {rows before after : List Row} {key : Bytes} {row : Row} (isKey : Key key)
    (found : RowAt rows key row before after) (plain : ∀ other ∈ rows, other.Plain) (rest : Bytes) :
    strstr key (rowsText rows ++ rest) = some (row.text ++ (rowsText after ++ rest)) := by
  obtain ⟨rfl, label, elsewhere⟩ := found
  have nonempty : key ≠ [] := List.ne_nil_of_mem isKey.colon
  induction before with
  | nil =>
      have start := strstr_self nonempty
        (row.gap ++ (decimal row.value ++ (row.unit ++ [10])) ++ (rowsText after ++ rest))
      rw [← label] at start ⊢
      simpa [rowsText, Row.text] using start
  | cons first before ih =>
      have passed := strstr_row (plain first (by simp)) isKey.colon ⟨isKey.noSpace, isKey.noTab⟩
        isKey.noNewline (elsewhere first List.mem_cons_self)
        (rowsText (before ++ row :: after) ++ rest)
      have unfolded : rowsText (first :: before ++ row :: after) ++ rest =
          first.text ++ (rowsText (before ++ row :: after) ++ rest) := by
        simp [rowsText]
      rw [unfolded, passed]
      exact ih (fun other member => elsewhere other (List.mem_cons_of_mem first member))
        fun other member => plain other (List.mem_cons_of_mem first member)

/-- The value in the first row whose label ends in the key. -/
def lookup (key : Bytes) (rows : List Row) : Option Nat :=
  (rows.find? fun row => (strstr key row.label).isSome).map Row.value

/-- In a label a key can only be the end. -/
theorem Row.Plain.strstr_label {row : Row} (plain : row.Plain) {key found : Bytes}
    (isKey : Key key) (inLabel : strstr key row.label = some found) : found = key := by
  obtain ⟨⟨more, rfl⟩, front, labelEq⟩ := strstr_found inLabel
  rcases List.eq_nil_or_concat' more with rfl | ⟨middle, last, rfl⟩
  · exact List.append_nil key
  · have once := plain.labelOnce
    have inside : 58 ∈ row.label.dropLast := by
      rw [← labelEq, ← List.append_assoc, ← List.append_assoc, List.dropLast_concat]
      exact List.mem_append_left middle (List.mem_append_right front isKey.colon)
    exact absurd inside once

/-- A search in a file of rows ends in the row that `lookup` finds, or goes on behind them. -/
theorem strstr_rows {key : Bytes} (isKey : Key key) {rows : List Row}
    (plain : ∀ row ∈ rows, row.Plain) (rest : Bytes) :
    (∃ row ∈ rows, lookup key rows = some row.value ∧ ∃ after,
      strstr key (rowsText rows ++ rest) =
        some (key ++ (row.gap ++ (decimal row.value ++ (row.unit ++ 10 :: after))))) ∨
    (lookup key rows = none ∧ strstr key (rowsText rows ++ rest) = strstr key rest) := by
  have nonempty : key ≠ [] := List.ne_nil_of_mem isKey.colon
  induction rows with
  | nil => exact Or.inr ⟨rfl, rfl⟩
  | cons row rows ih =>
      have rowPlain := plain row List.mem_cons_self
      have unfolded : rowsText (row :: rows) ++ rest = row.text ++ (rowsText rows ++ rest) := by
        simp [rowsText]
      cases inLabel : strstr key row.label with
      | some found =>
          obtain rfl := rowPlain.strstr_label isKey inLabel
          refine Or.inl ⟨row, List.mem_cons_self, ?_, rowsText rows ++ rest, ?_⟩
          · simp [lookup, inLabel]
          · obtain ⟨first, gap, gapEq⟩ := List.exists_cons_of_ne_nil rowPlain.gapped
            have firstBlank : first ∉ found := by
              rcases rowPlain.blank first (gapEq ▸ List.mem_cons_self) with rfl | rfl
              · exact isKey.noSpace
              · exact isKey.noTab
            have split : row.text ++ (rowsText rows ++ rest) = row.label ++ first ::
                (gap ++ (decimal row.value ++ (row.unit ++ 10 :: (rowsText rows ++ rest)))) := by
              simp [Row.text, gapEq]
            rw [unfolded, split, strstr_separated firstBlank nonempty, inLabel]
            simp [gapEq]
      | none =>
          have passed := strstr_row rowPlain isKey.colon ⟨isKey.noSpace, isKey.noTab⟩
            isKey.noNewline inLabel (rowsText rows ++ rest)
          have later : lookup key (row :: rows) = lookup key rows := by simp [lookup, inLabel]
          rw [unfolded, passed, later]
          rcases ih fun other member => plain other (List.mem_cons_of_mem row member) with
            ⟨chosen, member, found⟩ | none
          · exact Or.inl ⟨chosen, List.mem_cons_of_mem row member, found⟩
          · exact Or.inr none

theorem Row.Plain.gap_blank {row : Row} (plain : row.Plain) :
    ∀ byte ∈ row.gap, isspace byte = true := by
  intro byte member
  rcases plain.blank byte member with rfl | rfl <;> rfl

theorem Row.Plain.unitStops_append {row : Row} (plain : row.Plain) (rest : Bytes) :
    NoDigit (row.unit ++ 10 :: rest) := by
  have unitStops := plain.unitStops
  cases unitEq : row.unit with
  | nil => exact noDigit_cons rfl rest
  | cons first unit =>
      rw [unitEq] at unitStops
      exact noDigit_cons (unitStops first rfl) _

theorem Row.Plain.scanInt {row : Row} (plain : row.Plain) {kind : IntKind}
    (fits : InRange kind row.value) (rest : Bytes) :
    scanInt kind (row.gap ++ (decimal row.value ++ (row.unit ++ 10 :: rest))) =
      some ((row.value : Int), row.unit ++ 10 :: rest) := by
  have stop := plain.unitStops_append rest
  have converted := convert_inRange fits
  have nonnegative : ¬(row.value : Int) < 0 := by omega
  rw [decide_eq_false nonnegative, Int.natAbs_natCast] at converted
  rw [← scanInt_skipSpace, skipSpace_append plain.gap_blank, scanInt_skipSpace,
    scanInt_digits kind (decimal_nonempty _) (decimal_digits _) stop, decimal_value, converted]

theorem Row.text_drop (row : Row) (rest : Bytes) :
    (row.text ++ rest).drop row.label.length =
      row.gap ++ (decimal row.value ++ (row.unit ++ 10 :: rest)) := by
  simp [Row.text]

theorem rowsText_length_le {rows : List Row} {bound : Nat}
    (short : ∀ row ∈ rows, row.text.length ≤ bound) : (rowsText rows).length ≤ bound * rows.length := by
  induction rows with
  | nil => exact Nat.zero_le _
  | cons row rows ih =>
      have first := short row List.mem_cons_self
      have later := ih fun other member => short other (List.mem_cons_of_mem row member)
      have unfolded : (rowsText (row :: rows)).length = row.text.length + (rowsText rows).length := by
        simp [rowsText]
      rw [unfolded, List.length_cons, Nat.mul_succ]
      omega

theorem rowsText_visible {rows : List Row} (plain : ∀ row ∈ rows, row.Plain) : 0 ∉ rowsText rows := by
  intro member
  obtain ⟨row, listed, found⟩ := List.mem_flatMap.mp member
  have rowPlain := plain row listed
  simp only [Row.text, List.mem_append, List.mem_singleton] at found
  rcases found with label | gap | number | unit | newline
  · exact rowPlain.labelVisible label
  · rcases rowPlain.blank 0 gap with impossible | impossible <;> cases impossible
  · exact (decimal_plain number).1 rfl
  · exact (rowPlain.unitPlain 0 unit).1 rfl
  · cases newline

/-! Lines read with `fgets`. -/

theorem fgets_line {line : Bytes} (noNewline : 10 ∉ line) {size : Nat}
    (short : line.length + 1 < size) (rest : Bytes) :
    fgets size (line ++ 10 :: rest) = (line ++ [10], rest) := by
  induction line generalizing size with
  | nil =>
      obtain ⟨room, rfl⟩ : ∃ room, size = room + 2 := ⟨size - 2, by simp at short; omega⟩
      simp [fgets]
  | cons first line ih =>
      obtain ⟨room, rfl⟩ : ∃ room, size = room + 2 := ⟨size - 2, by simp at short; omega⟩
      have different : first ≠ 10 := fun same => noNewline (same ▸ List.mem_cons_self)
      have later := ih (fun member => noNewline (List.mem_cons_of_mem first member))
        (show line.length + 1 < room + 1 by simp at short; omega)
      simp [fgets, different, later]

theorem fgetsLines_lines {size : Nat} {lines : List Bytes}
    (plain : ∀ line ∈ lines, 10 ∉ line ∧ line.length + 1 < size) (rest : Bytes) {fuel : Nat}
    (enough : lines.length ≤ fuel) :
    fgetsLines size fuel (lines.flatMap (· ++ [10]) ++ rest) =
      lines.map (· ++ [10]) ++ fgetsLines size (fuel - lines.length) rest := by
  induction lines generalizing fuel with
  | nil => simp
  | cons line lines ih =>
      obtain ⟨fuel, rfl⟩ : ∃ less, fuel = less + 1 := ⟨fuel - 1, by simp at enough; omega⟩
      obtain ⟨noNewline, short⟩ := plain line List.mem_cons_self
      have text : (line :: lines).flatMap (· ++ [10]) ++ rest =
          line ++ 10 :: (lines.flatMap (· ++ [10]) ++ rest) := by
        simp
      have nonempty : line ++ 10 :: (lines.flatMap (· ++ [10]) ++ rest) ≠ [] := by simp
      rw [text, fgetsLines, if_neg nonempty, fgets_line noNewline short]
      have later := ih (fun other member => plain other (List.mem_cons_of_mem line member))
        (show lines.length ≤ fuel by simpa using enough)
      simp [later]

end CString
