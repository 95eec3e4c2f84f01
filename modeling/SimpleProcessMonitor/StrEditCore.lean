import SimpleProcessMonitor.StrCore

/-!
`Str.c`: the functions that change a string in place, the search that ignores case, the
copies into a buffer and the comparisons. As in `StrCore`, a string that is only read stands
without its NUL, and one that is written is the block of memory that holds it.
-/

namespace SimpleProcessMonitor

open CString

/-- `tolower` in the C locale. -/
def tolower (char : UInt8) : UInt8 :=
  if 65 ≤ char ∧ char ≤ 90 then char + 32 else char

namespace Str

/-- The loop of `Str_toLower`, `Str_toUpper` and `Str_replaceChar`, which ends at the NUL that
stood there before. -/
def convert (change : UInt8 → UInt8) : Bytes → Option Bytes
  | [] => none
  | char :: rest =>
      if char = 0 then some (char :: rest) else (convert change rest).map (change char :: ·)

def toLower (s : Bytes) : Option Bytes := convert tolower s

def toUpper (s : Bytes) : Option Bytes := convert toupper s

def replaceWith (o n char : UInt8) : UInt8 := if char = o then n else char

def replaceChar (o n : UInt8) (s : Bytes) : Option Bytes := convert (replaceWith o n) s

def chomp : Bytes → Option Bytes
  | [] => none
  | char :: rest =>
      if char = 0 then some (char :: rest)
      else if char = 13 ∨ char = 10 then some (0 :: rest)
      else (chomp rest).map (char :: ·)

/-! Quotes. -/

def isquote (char : UInt8) : Bool :=
  char == 34 || char == 39 || isspaceChar char

/-- `for (; *t; t++, u++) *u = *t`: as each round reads another byte of the block, there are no
more rounds than bytes. -/
def copyDown : Nat → Nat → Nat → Bytes → Option (Nat × Bytes)
  | 0, _, _, _ => none
  | rounds + 1, t, u, s =>
      match s[t]? with
      | none => none
      | some char =>
          if char = 0 then some (u, s)
          else (Block.write s u char).bind (copyDown rounds (t + 1) (u + 1))

/-- The loop that begins with the NUL at `t`; it does not look at the first byte. -/
def unquoteRight : Nat → Bytes → Option Bytes
  | 0, s => Block.write s 0 0
  | t + 1, s =>
      match Block.write s (t + 1) 0 with
      | none => none
      | some s =>
          if 0 < t then
            match s[t]? with
            | none => none
            | some char => if isquote char then unquoteRight t s else some s
          else some s

def unquote (s : Bytes) : Option Bytes := do
  let first ← s[0]?
  if first ≠ 0 then
    let t ← Strip.scan isquote s
    let left ← if t ≠ 0 then copyDown s.length t 0 s else (Strip.scan (· != 0) s).map (·, s)
    unquoteRight left.1 left.2
  else return s

/-! Escapes. -/

/-- The loop of `Str_unescape`, where `x` is written and `y` is read. -/
def unescapeLoop (charset : Bytes) : Nat → Nat → Nat → Bytes → Option (Nat × Bytes)
  | 0, _, _, _ => none
  | rounds + 1, x, y, s =>
      match s[y]? with
      | none => none
      | some char =>
          if char = 0 then some (x, s)
          else
            match Block.write s x char with
            | none => none
            | some s =>
                if char = 92 ∧ charset ≠ [] then
                  match s[y + 1]? with
                  | none => none
                  | some next =>
                      if next ∈ charset then
                        (Block.write s x next).bind (unescapeLoop charset rounds (x + 1) (y + 2))
                      else unescapeLoop charset rounds (x + 1) (y + 1) s
                else unescapeLoop charset rounds (x + 1) (y + 1) s

def unescape (charset s : Bytes) : Option Bytes := do
  let first ← s[0]?
  if first ≠ 0 then
    let unescaped ← unescapeLoop charset s.length 0 0 s
    Block.write unescaped.2 unescaped.1 0
  else return s

/-! Cuts. -/

def ellipsis (n : Nat) (s : Bytes) : Option Bytes := do
  let s ← Block.write s (n - 3) 46
  let s ← Block.write s (n - 2) 46
  Block.write s (n - 1) 46

/-- The assertion fails for a negative `n`. -/
def trunc (n : Int) (s : Bytes) : Option Bytes :=
  if n < 0 then none
  else do
    let sl ← Strip.scan (· != 0) s
    if n.toNat < sl then
      let s ← if 0 ≤ n - 3 then ellipsis n.toNat s else some s
      Block.write s n.toNat 0
    else return s

def matchesAt : Bytes → Bytes → Option Bool
  | _, [] => some true
  | [], _ :: _ => none
  | p :: a, q :: b => if toupper p = toupper q then matchesAt a b else some false

def subLoop (b : Bytes) : Bytes → Option (Option Nat)
  | [] => none
  | char :: rest =>
      if char = 0 then some none
      else
        match (if toupper char = toupper (b.headD 0) then matchesAt (char :: rest) b
          else some false) with
        | none => none
        | some true => some (some 0)
        | some false => (subLoop b rest).map fun found => found.map (· + 1)

def sub (a b : Bytes) : Option (Option Nat) :=
  if b = [] then some none else subLoop b a

def curtail (t s : Bytes) : Option Bytes :=
  match sub s t with
  | none => none
  | some none => some s
  | some (some x) => Block.write s x 0

/-! Copies. -/

/-- `while (*src && n--) *t++ = *src++`, with what is left of `n` and the position of `t`. -/
def copyLoop : Bytes → Int → Nat → Bytes → Option (Int × Nat × Bytes)
  | [], n, t, dest => some (n, t, dest)
  | char :: src, n, t, dest =>
      if n = 0 then some (n - 1, t, dest)
      else (Block.write dest t char).bind (copyLoop src (n - 1) (t + 1))

def copy (dest src : Bytes) (n : Int) : Option Bytes :=
  if 0 < n then
    (copyLoop src n 0 dest).bind fun copied => Block.write copied.2.2 copied.2.1 0
  else Block.write dest 0 0

def joinLoop : List Bytes → Int → Nat → Bytes → Option (Nat × Bytes)
  | [], _, q, dest => some (q, dest)
  | p :: parts, n, q, dest =>
      if 0 < n then
        (copyLoop p n q dest).bind fun copied => joinLoop parts copied.1 copied.2.1 copied.2.2
      else some (q, dest)

/-- The strings are the arguments in front of the final `NULL`. -/
def join (dest : Bytes) (n : Int) (parts : List Bytes) : Option Bytes :=
  (joinLoop parts n 0 dest).bind fun joined => Block.write joined.2 joined.1 0

/-! Comparisons. -/

/-- The loop of `Str_isEqual` and `Str_isByteEqual`, and the comparison of what it stops at. -/
def equalLoop (fold : UInt8 → UInt8) : Bytes → Bytes → Bool
  | p :: a, q :: b => if fold p ≠ fold q then false else equalLoop fold a b
  | a, b => a.headD 0 == b.headD 0

/-- `none` is `NULL`, here and below. -/
def equalStrings (fold : UInt8 → UInt8) : Option Bytes → Option Bytes → Bool
  | some a, some b => equalLoop fold a b
  | _, _ => false

def isEqual (a b : Option Bytes) : Bool := equalStrings toupper a b

def isByteEqual (a b : Option Bytes) : Bool := equalStrings id a b

def compareConstantTimeStringLength : Nat := 64

/-- The buffer, zero before, that `snprintf` prints the string into. -/
def compareBuffer (text : Bytes) : Bytes :=
  let printed := text.take compareConstantTimeStringLength
  printed ++ List.replicate (compareConstantTimeStringLength + 1 - printed.length) 0

def promoted (char : UInt8) : BitVec 32 := BitVec.ofInt 32 (promoteChar char)

def differences (rv : BitVec 32) : Bytes → Bytes → BitVec 32
  | p :: x, q :: y => differences (rv ||| (promoted p ^^^ promoted q)) x y
  | _, _ => rv

/-- For strings of less than 2^31 bytes, of which `snprintf` can return the length. -/
def compareConstantTime (x y : Option Bytes) : Int :=
  let _x := x.getD []
  let _y := y.getD []
  if compareConstantTimeStringLength < _x.length ∨ compareConstantTimeStringLength < _y.length then 1
  else (differences 0#32 (compareBuffer _x) (compareBuffer _y)).toInt

end Str

end SimpleProcessMonitor
