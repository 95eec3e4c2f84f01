import SimpleProcessMonitor.StrCore
import SimpleProcessMonitor.StringBufferCore

/-!
The rest of `StringBuffer.c`. Where the code indexes the buffer by hand the accesses are
checked: `none` is an access outside the allocated block or a failed assertion.
-/

namespace SimpleProcessMonitor

open CString

/-- A NUL-terminated string, without its NUL. -/
structure CText where
  bytes : Bytes
  visible : 0 ∉ bytes

/-- The format of `StringBuffer_append` with its argument; a literal has no conversions. -/
inductive Format
  | string (argument : CText)
  | char (argument : UInt8) (visible : argument ≠ 0)
  | literal (text : CText) (plain : 37 ∉ text.bytes)

def Format.text : Format → Bytes
  | string argument => argument.bytes
  | char argument _ => [argument]
  | literal text _ => text.bytes

def Format.defined : Format → Bool
  | literal text _ => text.bytes ≠ []
  | _ => true

/-- Compares the string with the bytes at a pointer into the buffer, up to the end of the
string or the first difference. -/
def startsAt : Bytes → Bytes → Option Bool
  | [], _ => some true
  | _ :: _, [] => none
  | char :: rest, byte :: behind =>
      if promote byte = promoteChar char then startsAt rest behind else some false

theorem startsAt_nil (s : Bytes) : startsAt s [] ≠ some false := by
  cases s <;> simp [startsAt]

def Ascii (s : Bytes) : Prop := ∀ char ∈ s, char.toNat < 128

instance (s : Bytes) : Decidable (Ascii s) :=
  List.decidableBAll (fun char : UInt8 => char.toNat < 128) s

/-- A byte from 128 on is positive in the buffer and negative in the string. -/
theorem promote_eq_iff (byte char : UInt8) :
    promote byte = promoteChar char ↔ byte = char ∧ char.toNat < 128 := by
  have byteBound := byte.toNat_lt
  have charBound := char.toNat_lt
  rw [promote, promoteChar, ← UInt8.toNat_inj]
  split <;> omega

theorem startsAt_cons {char byte : UInt8} {s text behind : Bytes}
    (later : startsAt s behind = some (decide (s <+: text ∧ Ascii s))) :
    startsAt (char :: s) (byte :: behind) =
      some (decide (char :: s <+: byte :: text ∧ Ascii (char :: s))) := by
  have both : (char :: s <+: byte :: text ∧ Ascii (char :: s)) ↔
      promote byte = promoteChar char ∧ s <+: text ∧ Ascii s := by
    simp only [promote_eq_iff, List.cons_prefix_cons, Ascii, List.forall_mem_cons]
    constructor
    · rintro ⟨⟨rfl, found⟩, small, ascii⟩
      exact ⟨⟨rfl, small⟩, found, ascii⟩
    · rintro ⟨⟨rfl, small⟩, found, ascii⟩
      exact ⟨⟨rfl, found⟩, small, ascii⟩
  simp only [startsAt, later, both]
  split <;> simp_all

theorem startsAt_terminated {s : Bytes} (visible : 0 ∉ s) (text rest : Bytes) :
    startsAt s (text ++ 0 :: rest) = some (decide (s <+: text ∧ Ascii s)) := by
  induction s generalizing text with
  | nil => simp [startsAt, Ascii]
  | cons char s ih =>
      rw [List.mem_cons, not_or] at visible
      cases text with
      | nil =>
          have different : promote 0 ≠ promoteChar char := by
            rw [Ne, promote_eq_iff]
            exact fun same => visible.1 same.1
          simp [startsAt, different]
      | cons byte text => exact startsAt_cons (ih visible.2 text)

theorem startsAt_append {s text : Bytes} (room : s.length ≤ text.length) (tail : Bytes) :
    startsAt s (text ++ tail) = some (decide (s <+: text ∧ Ascii s)) := by
  induction s generalizing text with
  | nil => simp [startsAt, Ascii]
  | cons char s ih =>
      cases text with
      | nil => simp at room
      | cons byte text => exact startsAt_cons (ih (Nat.le_of_succ_le_succ room))

namespace StringBuffer

variable (memory : RawMemory)

def create (hint : Int) : Option StringBuffer :=
  if 0 < hint then some (ctor memory hint.toNat) else none

def appendFormat (S : StringBuffer) (format : Format) : StringBuffer :=
  if format.defined then S.append memory format.text else S

/-- `_append` gets a copy of the arguments, as in `StringBuffer_append`. -/
def vappend (S : StringBuffer) (format : Format) : StringBuffer :=
  if format.defined then S.append memory format.text else S

def new (s : CText) : StringBuffer :=
  appendFormat memory (ctor memory bufferStrlen) (.string s)

def delete (S : StringBuffer) (index : Int) : Option StringBuffer :=
  if 0 ≤ index ∧ index ≤ S.used then
    some { S with used := index.toNat, buffer := S.buffer.set index.toNat 0 }
  else none

def substring (S : StringBuffer) (index : Int) : Option Bytes :=
  if 0 ≤ index ∧ index ≤ S.used then some (cString (S.buffer.drop index.toNat)) else none

def appendPasses (S : StringBuffer) (text : Bytes) : Nat :=
  let printed := S.vsnprintf text
  if S.used + text.length < S.length then 1
  else 1 + appendPasses (printed.resize memory (S.length + (bufferStrlen + text.length))) text
termination_by S.used + text.length + 1 - S.length
decreasing_by
  simp only [resize, vsnprintf]
  split <;> simp only [bufferStrlen] <;> omega

/-- `StringBuffer_trim`, as `trim` but with its accesses checked. -/
def trimChecked (S : StringBuffer) : Option StringBuffer := do
  let (used, buffer) ← Strip.clearBack isspace 0 S.used S.buffer
  let first ← buffer[0]?
  if isspace first then
    let i ← Strip.scan isspace buffer
    let moved ← Strip.dropFront buffer used i 0
    return { S with used := used - i, buffer := moved }
  else return { S with used := used, buffer := buffer }

/-! Searching. -/

def indexLoop (s : Bytes) : Nat → Nat → Bytes → Option Int
  | 0, _, _ => some (-1)
  | remaining + 1, i, behind =>
      match startsAt s behind with
      | none => none
      | some true => some i
      | some false => indexLoop s remaining (i + 1) (behind.drop 1)

def indexOf (S : StringBuffer) (s : CText) : Option Int :=
  if s.bytes = [] then some (-1) else indexLoop s.bytes S.used 0 S.buffer

def lastIndexLoop (s buffer : Bytes) : Nat → Option Int
  | 0 => some (-1)
  | i + 1 =>
      match startsAt s (buffer.drop i) with
      | none => none
      | some true => some i
      | some false => lastIndexLoop s buffer i

def lastIndexOf (S : StringBuffer) (s : CText) : Option Int :=
  if s.bytes = [] then some (-1) else lastIndexLoop s.bytes S.buffer S.used

/-! Replacing. -/

/-- The first loop goes on one byte behind a match. -/
def countMatches (a : Bytes) : Bytes → Option Nat
  | [] => none
  | byte :: behind =>
      if byte = 0 then some 0
      else do
        let found ← startsAt a (byte :: behind)
        let n ← countMatches a behind
        return if found then n + 1 else n

/-- One match at `i` is exchanged; a negative length of the move is out of bounds. With both
copies in bounds neither `S->used += diff` nor `i += bl - 1` leaves the range of `int`. -/
def exchange (a b : Bytes) (i : Nat) (S : StringBuffer) : Option StringBuffer :=
  if S.used < i + a.length then none
  else
    ((Block.move S.buffer (i + b.length) (i + a.length) (S.used - (i + a.length))).bind
      (Block.store · i b)).map fun stored =>
        { S with used := S.used + b.length - a.length, buffer := stored }

theorem exchange_length {a b : Bytes} {i : Nat} {S result : StringBuffer}
    (exchanged : exchange a b i S = some result) :
    result.length = S.length ∧ result.buffer.length = S.buffer.length := by
  unfold exchange at exchanged
  split at exchanged
  · cases exchanged
  · obtain ⟨stored, copies, rfl⟩ := Option.map_eq_some_iff.mp exchanged
    obtain ⟨moved, move, store⟩ := Option.bind_eq_some_iff.mp copies
    refine ⟨rfl, ?_⟩
    rw [Block.move] at move
    split at move
    · exact (Block.store_length store).trans (Block.store_length move)
    · cases move

/-- The second loop exchanges `m` matches and has no other bound. -/
def replaceLoop (a b : Bytes) (m i : Nat) (S : StringBuffer) : Option StringBuffer :=
  match m with
  | 0 => some S
  | m + 1 =>
      match found : startsAt a (S.buffer.drop i) with
      | none => none
      | some false => replaceLoop a b (m + 1) (i + 1) S
      | some true =>
          match exchange a b i S with
          | none => none
          | some S => replaceLoop a b m (i + b.length) S
termination_by (m, S.buffer.length - i)
decreasing_by
  · refine Prod.Lex.right _ ?_
    have inside : i < S.buffer.length := by
      by_contra outside
      rw [List.drop_eq_nil_of_le (by omega)] at found
      exact startsAt_nil a found
    omega
  · exact Prod.Lex.left _ _ (Nat.lt_succ_self m)

/-- `S->length = (int)required` and `RESIZE`, which asserts that the size is positive. -/
def resizeInt (S : StringBuffer) (required : Nat) : Option StringBuffer :=
  if 0 < wrapSigned 32 required then
    let length := (wrapSigned 32 required).toNat
    let resized := S.resize memory length
    some { resized with buffer := resized.buffer.take length }
  else none

/-- `diff` is unsigned, so a shorter replacement also passes the test `diff > 0`. -/
def growFor (S : StringBuffer) (a b : Bytes) (n : Nat) : Option StringBuffer :=
  let diff := (b.length + 2 ^ 64 - a.length) % 2 ^ 64
  if 0 < diff then
    let required := (diff * n + S.used + 1) % 2 ^ 64
    if S.length ≤ required then resizeInt memory S required else some S
  else some S

def replace (S : StringBuffer) (a b : CText) : Option (Nat × StringBuffer) :=
  if a.bytes = [] then some (0, S)
  else do
    let n ← countMatches a.bytes S.buffer
    if n = 0 then return (0, S)
    let grown ← growFor memory S a.bytes b.bytes n
    let replaced ← replaceLoop a.bytes b.bytes n 0 grown
    let buffer ← Block.write replaced.buffer replaced.used 0
    return (n, { replaced with buffer := buffer })

end StringBuffer

/-! Appending with a `vsnprintf` that can fail. -/

structure PrintFailure where
  code : Int
  negative : code < 0
  written : Bytes

/-- The text that the arguments format to, and the passes of the loop that fail. -/
structure AppendCall where
  defined : Bool
  text : CText
  failure : Nat → Option PrintFailure

/-- The range of `int`; a sum outside it is undefined. -/
def FitsInt (value : Int) : Prop := -2 ^ 31 ≤ value ∧ value < 2 ^ 31

instance (value : Int) : Decidable (FitsInt value) :=
  inferInstanceAs (Decidable (_ ∧ _))

/-- A string buffer with its fields of type `int`. -/
structure PrintBuffer where
  used : Int
  length : Int
  buffer : Bytes
  below : used < length
  usedInt : FitsInt used
  lengthInt : FitsInt length

namespace PrintBuffer

/-- Nothing can be stored in front of the block. -/
def store (S : PrintBuffer) (bytes : Bytes) : Option Bytes :=
  if bytes = [] then some S.buffer
  else if 0 ≤ S.used then Block.store S.buffer S.used.toNat bytes
  else none

def vsnprintf (S : PrintBuffer) (text : Bytes) (failure : Option PrintFailure) :
    Option (Int × Bytes) :=
  let size := (S.length - S.used).toNat
  match failure with
  | some failure => (S.store (failure.written.take size)).map (failure.code, ·)
  | none => (S.store (text.take (size - 1) ++ [0])).map ((text.length : Int), ·)

theorem vsnprintf_le {S : PrintBuffer} {text buffer : Bytes} {failure : Option PrintFailure}
    {n : Int} (printed : S.vsnprintf text failure = some (n, buffer)) : n ≤ text.length := by
  cases failure with
  | none =>
      obtain ⟨_, _, returned⟩ := Option.map_eq_some_iff.mp printed
      cases returned
      exact le_refl _
  | some failure =>
      obtain ⟨_, _, returned⟩ := Option.map_eq_some_iff.mp printed
      cases returned
      have negative := failure.negative
      omega

def resize (memory : RawMemory) (old length : Int) (buffer : Bytes) : Bytes :=
  buffer ++ ((List.range length.toNat).drop old.toNat).map (memory length.toNat)

/-- `_append`, with the last result of `vsnprintf`. The sums `S->used + n`, `STRLEN + n` and
`S->length + (STRLEN + n)` are formed in this order, each only if it is reached. -/
def appendLoop (memory : RawMemory) (text : Bytes) (failure : Nat → Option PrintFailure)
    (pass : Nat) (S : PrintBuffer) : Option (Int × PrintBuffer) :=
  match printed : S.vsnprintf text (failure pass) with
  | none => none
  | some (n, buffer) =>
      if inInt : FitsInt (S.used + n) then
        if fits : S.used + n < S.length then
          some (n, ⟨S.used + n, S.length, buffer, fits, inInt, S.lengthInt⟩)
        else if grows : FitsInt (bufferStrlen + n) ∧ FitsInt (S.length + (bufferStrlen + n)) then
          let length := S.length + (bufferStrlen + n)
          appendLoop memory text failure (pass + 1)
            ⟨S.used, length, resize memory S.length length buffer, by
              have below := S.below
              omega, S.usedInt, grows.2⟩
        else none
      else none
termination_by (S.used + text.length + 1 - S.length).toNat
decreasing_by
  have bounded := vsnprintf_le printed
  have below := S.below
  simp only [bufferStrlen]
  omega

def append (memory : RawMemory) (S : PrintBuffer) (call : AppendCall) :
    Option (Int × PrintBuffer) :=
  if call.defined then appendLoop memory call.text.bytes call.failure 0 S else some (0, S)

end PrintBuffer

end SimpleProcessMonitor
