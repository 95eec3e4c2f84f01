import Mathlib.Algebra.Ring.Int.Defs
import Mathlib.Algebra.Ring.Nat
import Mathlib.Data.List.Basic
import Mathlib.Data.List.DropRight
import Mathlib.Data.List.Infix
import Mathlib.Data.List.TakeWhile

/-!
Byte strings as the C library sees them: the character classes of the C locale,
the searches `strchr`, `strrchr` and `strstr`, and the integer and character
directives of `sscanf`. A pointer into a string is the suffix it points at.
-/

namespace CString

abbrev Bytes := List UInt8

def bytes (text : String) : Bytes :=
  text.toList.map fun char => UInt8.ofNat char.toNat

/-- What the string functions see of a buffer: everything before its first NUL. -/
def cString (buffer : Bytes) : Bytes :=
  buffer.takeWhile (· != 0)

def isspace (byte : UInt8) : Bool :=
  byte == 32 || (9 ≤ byte && byte ≤ 13)

def isdigit (byte : UInt8) : Bool :=
  48 ≤ byte && byte ≤ 57

def skipSpace (text : Bytes) : Bytes :=
  text.dropWhile isspace

def trimRight (text : Bytes) : Bytes :=
  (text.reverse.dropWhile isspace).reverse

def trim (text : Bytes) : Bytes :=
  skipSpace (trimRight text)

def strchr (byte : UInt8) : Bytes → Option Bytes
  | [] => none
  | first :: rest => if first = byte then some (first :: rest) else strchr byte rest

def strrchr (byte : UInt8) : Bytes → Option Bytes
  | [] => none
  | first :: rest =>
      match strrchr byte rest with
      | some found => some found
      | none => if first = byte then some (first :: rest) else none

def strstr (needle : Bytes) : Bytes → Option Bytes
  | [] => if needle = [] then some [] else none
  | first :: rest =>
      if needle <+: first :: rest then some (first :: rest) else strstr needle rest

/-! The conversions of `sscanf`. -/

inductive IntKind
  | int
  | long
  | ulong
  deriving DecidableEq

def wrapSigned (width : Nat) (value : Int) : Int :=
  (value + 2 ^ (width - 1)) % 2 ^ width - 2 ^ (width - 1)

def clampLong (value : Int) : Int :=
  max (-2 ^ 63) (min value (2 ^ 63 - 1))

/-- `strtol` saturates at the ends of `long`, `%d` keeps the low 32 bits of that;
`strtoul` saturates on the magnitude and negates modulo `2 ^ 64`. -/
def convert (kind : IntKind) (negative : Bool) (magnitude : Nat) : Int :=
  let signed : Int := if negative then -magnitude else magnitude
  match kind with
  | .int => wrapSigned 32 (clampLong signed)
  | .long => clampLong signed
  | .ulong => if magnitude < 2 ^ 64 then signed % 2 ^ 64 else 2 ^ 64 - 1

def digitsValue (digits : Bytes) : Nat :=
  digits.foldl (fun value digit => 10 * value + (digit.toNat - 48)) 0

def readSign : Bytes → Bool × Bytes
  | [] => (false, [])
  | first :: rest =>
      if first = 45 then (true, rest)
      else if first = 43 then (false, rest)
      else (false, first :: rest)

def scanInt (kind : IntKind) (text : Bytes) : Option (Int × Bytes) :=
  let signed := readSign (skipSpace text)
  let digits := signed.2.takeWhile isdigit
  if digits = [] then none
  else some (convert kind signed.1 (digitsValue digits), signed.2.dropWhile isdigit)

inductive Directive
  | space
  | lit (byte : UInt8)
  | char
  | int (kind : IntKind)
  | skip
  deriving DecidableEq

def litAll (text : String) : List Directive :=
  (bytes text).map Directive.lit

/-- The values `sscanf` assigns, in order; their number is its result (an input
failure, for which `sscanf` returns -1, also assigns nothing). `skip` is `%*d` or `%*u`. -/
def sscanf : List Directive → Bytes → List Int
  | [], _ => []
  | .space :: rest, text => sscanf rest (skipSpace text)
  | .lit byte :: rest, text =>
      match text with
      | [] => []
      | first :: tail => if first = byte then sscanf rest tail else []
  | .char :: rest, text =>
      match text with
      | [] => []
      | first :: tail => (first.toNat : Int) :: sscanf rest tail
  | .int kind :: rest, text =>
      match scanInt kind text with
      | none => []
      | some (value, tail) => value :: sscanf rest tail
  | .skip :: rest, text =>
      match scanInt .long text with
      | none => []
      | some (_, tail) => sscanf rest tail

def atoi (text : Bytes) : Int :=
  match scanInt .int text with
  | none => 0
  | some (value, _) => value

/-- The arguments of a `sscanf` call: each value goes through its own setter, and a
conversion that was not reached leaves its target alone. -/
def assign {α : Type} : List (Int → α → α) → List Int → α → α
  | set :: sets, value :: values, target => assign sets values (set value target)
  | _, _, target => target

def chunks (size : Nat) : Nat → Bytes → List Bytes
  | 0, _ => []
  | fuel + 1, text =>
      if text = [] then [] else text.take size :: chunks size fuel (text.drop size)

/-- One `fgets` into a buffer of `size` bytes: up to and including a newline. -/
def fgets (size : Nat) : Bytes → Bytes × Bytes
  | [] => ([], [])
  | first :: rest =>
      match size with
      | 0 | 1 => ([], first :: rest)
      | room + 1 =>
          if first = 10 then ([first], rest)
          else
            let more := fgets room rest
            (first :: more.1, more.2)

def fgetsLines (size : Nat) : Nat → Bytes → List Bytes
  | 0, _ => []
  | fuel + 1, text =>
      if text = [] then []
      else
        let line := fgets size text
        line.1 :: fgetsLines size fuel line.2

/-! Rules for the arguments of a `sscanf` call. -/

def Directive.assigns : Directive → Bool
  | .char => true
  | .int _ => true
  | _ => false

theorem sscanf_length (directives : List Directive) (text : Bytes) :
    (sscanf directives text).length ≤ directives.countP Directive.assigns := by
  induction directives generalizing text with
  | nil => simp [sscanf]
  | cons directive rest ih =>
      cases directive with
      | space => exact ih (skipSpace text)
      | lit byte =>
          cases text with
          | nil => simp [sscanf]
          | cons first tail =>
              simp only [sscanf]
              split
              · exact ih tail
              · simp
      | char =>
          cases text with
          | nil => simp [sscanf]
          | cons first tail =>
              rw [List.countP_cons_of_pos rfl]
              simpa [sscanf] using ih tail
      | int kind =>
          simp only [sscanf]
          split
          · simp
          · rename_i value tail _
            rw [List.countP_cons_of_pos rfl]
            simpa using ih tail
      | skip =>
          simp only [sscanf]
          split
          · simp
          · rename_i tail _
            exact ih tail

section Assign

variable {α β : Type}

@[simp] theorem assign_nil (sets : List (Int → α → α)) (target : α) : assign sets [] target = target := by
  cases sets <;> rfl

theorem assign_congr (view : α → β) {sets : List (Int → α → α)}
    (local_ : ∀ set ∈ sets, ∀ value first second, view first = view second →
      view (set value first) = view (set value second))
    (values : List Int) {first second : α} (same : view first = view second) :
    view (assign sets values first) = view (assign sets values second) := by
  induction sets generalizing values first second with
  | nil => simpa [assign] using same
  | cons set sets ih =>
      cases values with
      | nil => simpa using same
      | cons value values =>
          exact ih (fun other member => local_ other (List.mem_cons_of_mem _ member)) values
            (local_ set List.mem_cons_self value first second same)

theorem assign_frame (view : α → β) {sets : List (Int → α → α)}
    (kept : ∀ set ∈ sets, ∀ value target, view (set value target) = view target)
    (values : List Int) (target : α) : view (assign sets values target) = view target := by
  induction sets generalizing values target with
  | nil => simp [assign]
  | cons set sets ih =>
      cases values with
      | nil => simp
      | cons value values =>
          rw [assign, ih (fun other member => kept other (List.mem_cons_of_mem _ member))]
          exact kept set List.mem_cons_self value target

theorem assign_append (first second : List (Int → α → α)) (values others : List Int)
    (full : values.length = first.length) (target : α) :
    assign (first ++ second) (values ++ others) target =
      assign second others (assign first values target) := by
  induction first generalizing values target with
  | nil =>
      have none : values = [] := List.length_eq_zero_iff.mp full
      simp [none]
  | cons set first ih =>
      cases values with
      | nil => simp at full
      | cons value values => exact ih values (by simpa using full) (set value target)

theorem assign_append_left (first second : List (Int → α → α)) (values : List Int)
    (few : values.length ≤ first.length) (target : α) :
    assign (first ++ second) values target = assign first values target := by
  induction first generalizing values target with
  | nil =>
      have none : values = [] := List.length_eq_zero_iff.mp (by simpa using few)
      simp [none]
  | cons set first ih =>
      cases values with
      | nil => simp
      | cons value values => exact ih values (by simpa using few) (set value target)

end Assign

/-! Rules for the searches. -/

section Search

variable {needle : Bytes}

theorem strchr_first {byte : UInt8} {before : Bytes} (absent : byte ∉ before) (rest : Bytes) :
    strchr byte (before ++ byte :: rest) = some (byte :: rest) := by
  induction before with
  | nil => exact if_pos rfl
  | cons first before ih =>
      obtain ⟨different, later⟩ := not_or.mp (List.mem_cons.not.mp absent)
      simpa [strchr, Ne.symm different] using ih later

theorem strrchr_absent {byte : UInt8} {text : Bytes} (absent : byte ∉ text) :
    strrchr byte text = none := by
  induction text with
  | nil => rfl
  | cons first text ih =>
      obtain ⟨different, later⟩ := not_or.mp (List.mem_cons.not.mp absent)
      simp [strrchr, ih later, Ne.symm different]

theorem strrchr_last {byte : UInt8} {rest : Bytes} (absent : byte ∉ rest) (before : Bytes) :
    strrchr byte (before ++ byte :: rest) = some (byte :: rest) := by
  induction before with
  | nil => simp [strrchr, strrchr_absent absent]
  | cons first before ih => simp [strrchr, ih]

theorem strstr_self (nonempty : needle ≠ []) (rest : Bytes) :
    strstr needle (needle ++ rest) = some (needle ++ rest) := by
  cases needle with
  | nil => exact absurd rfl nonempty
  | cons first tail => exact if_pos (List.prefix_append _ rest)

theorem strstr_separated {separator : UInt8} (absent : separator ∉ needle)
    (nonempty : needle ≠ []) (line rest : Bytes) :
    strstr needle (line ++ separator :: rest) =
      match strstr needle line with
      | some found => some (found ++ separator :: rest)
      | none => strstr needle rest := by
  have inLine (text : Bytes) (start : needle <+: text ++ separator :: rest) : needle <+: text := by
    have extended : text ++ [separator] <+: text ++ separator :: rest := ⟨rest, by simp⟩
    rcases List.prefix_or_prefix_of_prefix start extended with within | beyond
    · rcases List.prefix_concat_iff.mp within with whole | inside
      · exact absurd (whole ▸ List.mem_append_right text (List.mem_singleton_self separator)) absent
      · exact inside
    · have member : separator ∈ text ++ [separator] := by simp
      exact absurd (beyond.subset member) absent
  induction line with
  | nil =>
      have noStart : ¬needle <+: separator :: rest := by
        intro start
        exact nonempty (List.prefix_nil.mp (inLine [] start))
      simp [strstr, noStart, nonempty]
  | cons first line ih =>
      by_cases start : needle <+: first :: line
      · have longer : needle <+: first :: (line ++ separator :: rest) :=
          start.trans (List.prefix_append (first :: line) (separator :: rest))
        simp [strstr, start, longer]
      · have later : ¬needle <+: first :: (line ++ separator :: rest) :=
          fun found => start (inLine (first :: line) found)
        simpa [strstr, start, later] using ih

end Search

theorem strchr_suffix {byte : UInt8} {text found : Bytes} (search : strchr byte text = some found) :
    found <:+ text := by
  induction text with
  | nil => cases search
  | cons first text ih =>
      simp only [strchr] at search
      split at search
      · exact Option.some.inj search ▸ List.suffix_refl _
      · exact (ih search).trans (List.suffix_cons first text)

theorem cString_visible (buffer : Bytes) : 0 ∉ cString buffer := by
  intro member
  have visible := List.mem_takeWhile_imp member
  simp at visible

theorem cString_append {first : Bytes} (visible : 0 ∉ first) (second : Bytes) :
    cString (first ++ second) = first ++ cString second := by
  apply List.takeWhile_append_of_pos
  intro byte member
  have nonzero : byte ≠ 0 := by
    rintro rfl
    exact visible member
  simpa using nonzero

theorem cString_terminated (text rest : Bytes) : cString (text ++ 0 :: rest) = cString text := by
  induction text with
  | nil => rfl
  | cons byte text ih =>
      rw [List.cons_append, cString, cString, List.takeWhile_cons, List.takeWhile_cons]
      split
      · exact congrArg (byte :: ·) ih
      · rfl

theorem cString_of_visible {text : Bytes} (visible : 0 ∉ text) : cString text = text := by
  have whole := cString_append visible []
  have empty : cString [] = [] := rfl
  rwa [empty, List.append_nil] at whole

theorem cString_ended {text : Bytes} (visible : 0 ∉ text) (rest : Bytes) :
    cString (text ++ 0 :: rest) = text :=
  (cString_terminated text rest).trans (cString_of_visible visible)

/-! Rules for reading in pieces. -/

theorem chunks_flatten {size : Nat} (positive : 0 < size) {fuel : Nat} {text : Bytes}
    (enough : text.length ≤ fuel) : (chunks size fuel text).flatten = text := by
  induction fuel generalizing text with
  | zero =>
      have empty : text = [] := List.length_eq_zero_iff.mp (by omega)
      simp [chunks, empty]
  | succ fuel ih =>
      simp only [chunks]
      split
      · rename_i empty
        simp [empty]
      · rename_i nonempty
        have shorter : (text.drop size).length ≤ fuel := by
          have length := List.length_pos_iff.mpr nonempty
          rw [List.length_drop]
          omega
        rw [List.flatten_cons, ih shorter, List.take_append_drop]

/-! Rules for numbers. -/

theorem skipSpace_cons {first : UInt8} (visible : isspace first = false) (rest : Bytes) :
    skipSpace (first :: rest) = first :: rest := by
  simp [skipSpace, visible]

theorem isspace_digit {first : UInt8} (digit : isdigit first = true) : isspace first = false := by
  simp only [isdigit, Bool.and_eq_true, decide_eq_true_eq, UInt8.le_iff_toNat_le] at digit
  simp [isspace, UInt8.le_iff_toNat_le, ← UInt8.toNat_inj] at digit ⊢
  omega

theorem readSign_digit {first : UInt8} (digit : isdigit first = true) (rest : Bytes) :
    readSign (first :: rest) = (false, first :: rest) := by
  have noMinus : first ≠ 45 := by
    rintro rfl
    cases digit
  have noPlus : first ≠ 43 := by
    rintro rfl
    cases digit
  simp [readSign, noMinus, noPlus]

/-- The text does not go on with a digit. -/
def NoDigit (tail : Bytes) : Prop := ∀ next ∈ tail.head?, isdigit next = false

theorem noDigit_cons {next : UInt8} (stop : isdigit next = false) (rest : Bytes) :
    NoDigit (next :: rest) := by
  intro first head
  rwa [← Option.some.inj head]

theorem takeWhile_digits {digits : Bytes} (all : ∀ byte ∈ digits, isdigit byte = true)
    {tail : Bytes} (stop : NoDigit tail) : (digits ++ tail).takeWhile isdigit = digits := by
  rw [List.takeWhile_append_of_pos all]
  cases tail with
  | nil => simp
  | cons next rest => simp [stop next rfl]

theorem dropWhile_digits {digits : Bytes} (all : ∀ byte ∈ digits, isdigit byte = true)
    {tail : Bytes} (stop : NoDigit tail) : (digits ++ tail).dropWhile isdigit = tail := by
  rw [List.dropWhile_append_of_pos all]
  cases tail with
  | nil => simp
  | cons next rest => simp [stop next rfl]

theorem scanInt_digits (kind : IntKind) {digits : Bytes} (nonempty : digits ≠ [])
    (all : ∀ byte ∈ digits, isdigit byte = true) {tail : Bytes} (stop : NoDigit tail) :
    scanInt kind (digits ++ tail) = some (convert kind false (digitsValue digits), tail) := by
  have signed : readSign (skipSpace (digits ++ tail)) = (false, digits ++ tail) := by
    cases digits with
    | nil => exact absurd rfl nonempty
    | cons first digits =>
        have digit := all first List.mem_cons_self
        rw [List.cons_append, skipSpace_cons (isspace_digit digit), readSign_digit digit]
  simp only [scanInt, signed, takeWhile_digits all stop, dropWhile_digits all stop, nonempty, if_false]

theorem scanInt_minus (kind : IntKind) {digits : Bytes} (nonempty : digits ≠ [])
    (all : ∀ byte ∈ digits, isdigit byte = true) {tail : Bytes} (stop : NoDigit tail) :
    scanInt kind (45 :: (digits ++ tail)) = some (convert kind true (digitsValue digits), tail) := by
  have signed : readSign (skipSpace (45 :: (digits ++ tail))) = (true, digits ++ tail) := rfl
  simp only [scanInt, signed, takeWhile_digits all stop, dropWhile_digits all stop, nonempty, if_false]

/-! A row of numbers, each behind a run of white space. -/

theorem skipSpace_append {gap : Bytes} (blank : ∀ byte ∈ gap, isspace byte = true) (text : Bytes) :
    skipSpace (gap ++ text) = skipSpace text :=
  List.dropWhile_append_of_pos blank

theorem skipSpace_idem (text : Bytes) : skipSpace (skipSpace text) = skipSpace text :=
  List.dropWhile_idempotent isspace text

theorem scanInt_skipSpace (kind : IntKind) (text : Bytes) :
    scanInt kind (skipSpace text) = scanInt kind text := by
  simp only [scanInt, skipSpace_idem]

theorem readSign_front {front text : Bytes} (isFront : front <+: text) :
    (readSign front).2 <+: (readSign text).2 := by
  cases front with
  | nil => exact List.nil_prefix
  | cons first front =>
      obtain ⟨rest, rfl⟩ := isFront
      simp only [readSign, List.cons_append]
      split
      · exact List.prefix_append front rest
      · split
        · exact List.prefix_append front rest
        · exact List.prefix_append (first :: front) rest

theorem skipSpace_front {front text : Bytes} (isFront : front <+: text) :
    skipSpace front <+: skipSpace text := by
  obtain ⟨rest, rfl⟩ := isFront
  induction front with
  | nil => exact List.nil_prefix
  | cons first front ih =>
      by_cases space : isspace first = true
      · simpa [skipSpace, space] using ih
      · simp [skipSpace, space]

theorem takeWhile_front {front text : Bytes} (isFront : front <+: text) :
    front.takeWhile isdigit <+: text.takeWhile isdigit := by
  obtain ⟨rest, rfl⟩ := isFront
  induction front with
  | nil => exact List.nil_prefix
  | cons first front ih =>
      by_cases digit : isdigit first = true
      · simpa [digit] using ih
      · simp [digit]

theorem scanInt_none_iff (kind : IntKind) (text : Bytes) :
    scanInt kind text = none ↔ (readSign (skipSpace text)).2.takeWhile isdigit = [] := by
  simp [scanInt]

/-- Where no number can be read, none can be read from a part of the text either. -/
theorem scanInt_none_prefix {kind : IntKind} {front text : Bytes} (isFront : front <+: text)
    (absent : scanInt kind text = none) : scanInt kind front = none := by
  rw [scanInt_none_iff] at absent ⊢
  have part := takeWhile_front (readSign_front (skipSpace_front isFront))
  rw [absent] at part
  exact List.prefix_nil.mp part

end CString
