import SimpleProcessMonitor.Library.Block
import SimpleProcessMonitor.Library.CString
import SimpleProcessMonitor.Library.Strip

/-!
`Str.c`: the comparison of the ends of two strings, the numbers, the escaping of zeros and
the trimming. A string that is only read stands without its NUL; one that is changed in place
is the block of memory that holds it, where `none` is an access outside the block.
-/

namespace SimpleProcessMonitor

open CString

/-- The value of an `unsigned char` and of a (signed) `char` after the integer promotions. -/
def promote (byte : UInt8) : Int := byte.toNat

def promoteChar (char : UInt8) : Int :=
  if char.toNat < 128 then char.toNat else char.toNat - 256

/-- `toupper` in the C locale. -/
def toupper (char : UInt8) : UInt8 :=
  if 97 ≤ char ∧ char ≤ 122 then char - 32 else char

namespace Str

/-- The round of the loop compares the NULs too. -/
def startsWith (a b : Bytes) : Bool :=
  if toupper (a.headD 0) ≠ toupper (b.headD 0) then false
  else
    match a, b with
    | [], _ => true
    | _ :: _, [] => true
    | _ :: a, _ :: b => if b = [] then true else startsWith a b

def endsWithLoop (a b : Bytes) : Nat → Nat → Bool
  | i + 1, j + 1 =>
      if toupper (a.getD (i + 1) 0) ≠ toupper (b.getD (j + 1) 0) then false
      else endsWithLoop a b i j
  | i, j => decide (j ≤ i)

def endsWith (a b : Bytes) : Bool :=
  endsWithLoop a b a.length b.length

/-! Numbers. -/

def decimalInteger (s : Bytes) : Option (Int × Bytes) :=
  let signed := readSign (skipSpace s)
  let digits := signed.2.takeWhile isdigit
  if digits = [] then none
  else
    let magnitude : Int := digitsValue digits
    some (if signed.1 then -magnitude else magnitude, signed.2.dropWhile isdigit)

structure Strtol where
  value : Int
  endptr : Bytes
  errno : Bool

/-- `strtol` and, `long` having 64 bits, `strtoll`. -/
def strtol (s : Bytes) : Strtol :=
  match decimalInteger s with
  | none => ⟨0, s, false⟩
  | some (value, rest) => ⟨clampLong value, rest, decide (clampLong value ≠ value)⟩

/-- The number behind the assertions, `cast` to its type. -/
def parse (cast : Int → Int) (s : Bytes) : Option Int :=
  if s = [] then none
  else
    let parsed := strtol s
    if parsed.errno ∨ parsed.endptr = s then some (cast parsed.value) else none

def parseInt (s : Bytes) : Option Int := parse (wrapSigned 32) s

def parseLLong (s : Bytes) : Option Int := parse id s

/-! Escaping. -/

def escapeAt (buf : Bytes) (currentByteIndex count : Nat) : Option Bytes := do
  let shifted ← Block.move buf (currentByteIndex + 1) currentByteIndex count
  let escaped ← Block.write shifted currentByteIndex 92
  Block.write escaped (currentByteIndex + 1) 48

def escapeLoop (bufferLength contentLength bytesProcessed currentByteIndex : Nat) (buf : Bytes) :
    Option (Nat × Bytes) :=
  if bytesProcessed < contentLength ∧ currentByteIndex < bufferLength then
    match buf[currentByteIndex]? with
    | none => none
    | some byte =>
        if byte = 0 ∧ currentByteIndex + 1 < bufferLength - 1 then
          match escapeAt buf currentByteIndex
              (min (contentLength - bytesProcessed) (bufferLength - currentByteIndex - 1)) with
          | none => none
          | some buf =>
              escapeLoop bufferLength contentLength (bytesProcessed + 1) (currentByteIndex + 2) buf
        else escapeLoop bufferLength contentLength (bytesProcessed + 1) (currentByteIndex + 1) buf
  else some (currentByteIndex, buf)
termination_by contentLength - bytesProcessed

def escapeZero (buf : Bytes) (bufferLength contentLength : Nat) : Option Bytes :=
  match escapeLoop bufferLength contentLength 0 0 buf with
  | none => none
  | some (currentByteIndex, buf) =>
      if currentByteIndex < bufferLength then Block.write buf currentByteIndex 0
      else Block.write buf (bufferLength - 1) 0

/-! Trimming. -/

/-- `isspace` of a plain `char`. -/
def isspaceChar (char : UInt8) : Bool :=
  promoteChar char == 32 || (9 ≤ promoteChar char && promoteChar char ≤ 13)

def ltrim (s : Bytes) : Option Bytes := do
  let first ← s[0]?
  if first ≠ 0 ∧ isspaceChar first then
    let j ← Strip.scan (· != 0) s
    let i ← Strip.scan isspaceChar s
    Strip.dropFront s j i 0
  else return s

def rtrim (s : Bytes) : Option Bytes := do
  let first ← s[0]?
  if first ≠ 0 then
    let length ← Strip.scan (· != 0) s
    let cleared ← Strip.clearBack isspaceChar 0 length s
    return cleared.2
  else return s

def trim (s : Bytes) : Option Bytes := (rtrim s).bind ltrim

end Str

end SimpleProcessMonitor
