import SimpleProcessMonitor.ProcfsCore

/-!
`StringBuffer.c`, as far as the scan uses it, and the scan of `ProcessTree.c` with the
one string buffer that all its processes share. Memory beyond what was written holds
whatever the allocator left there.
-/

namespace SimpleProcessMonitor

open CString

/-- The bytes of a block of some size, as the allocator hands it out. -/
abbrev RawMemory := Nat → Nat → UInt8

structure StringBuffer where
  used : Nat
  length : Nat
  buffer : Bytes

namespace StringBuffer

variable (memory : RawMemory)

def resize (S : StringBuffer) (length : Nat) : StringBuffer where
  used := S.used
  length := length
  buffer := S.buffer ++ ((List.range length).drop S.length).map (memory length)

/-- `vsnprintf` behind the used part: what fits, and a NUL. -/
def vsnprintf (S : StringBuffer) (text : Bytes) : StringBuffer :=
  if S.length = S.used then S
  else
    let written := text.take (S.length - S.used - 1) ++ [0]
    { S with buffer := S.buffer.take S.used ++ written ++ S.buffer.drop (S.used + written.length) }

/-- `_append`, the arguments being formatted to `text`. -/
def append (S : StringBuffer) (text : Bytes) : StringBuffer :=
  let printed := S.vsnprintf text
  if S.used + text.length < S.length then { printed with used := S.used + text.length }
  else append (printed.resize memory (S.length + (bufferStrlen + text.length))) text
termination_by S.used + text.length + 1 - S.length
decreasing_by
  simp only [resize, vsnprintf]
  split <;> simp only [bufferStrlen] <;> omega

def ctor (hint : Nat) : StringBuffer where
  used := 0
  length := hint
  buffer := ((List.range hint).map (memory hint)).set 0 0

def byteAt (S : StringBuffer) (index : Nat) : UInt8 := S.buffer.getD index 0

def rightTrim : Nat → StringBuffer → StringBuffer
  | 0, S => S
  | used + 1, S =>
      if isspace (S.byteAt used) then
        rightTrim used { S with used := used, buffer := S.buffer.set used 0 }
      else S

def leftTrim (S : StringBuffer) : StringBuffer :=
  if isspace (S.byteAt 0) then
    let i := (S.buffer.takeWhile isspace).length
    let moved := (S.buffer.drop i).take (S.used - i) ++ S.buffer.drop (S.used - i)
    { S with used := S.used - i, buffer := moved.set (S.used - i) 0 }
  else S

def trim (S : StringBuffer) : StringBuffer :=
  (S.rightTrim S.used).leftTrim

def clear (S : StringBuffer) : StringBuffer :=
  { S with used := 0, buffer := S.buffer.set 0 0 }

def toString (S : StringBuffer) : Bytes := cString S.buffer

end StringBuffer

/-! The scan with its shared buffer. -/

structure SharedProc where
  name : StringBuffer
  data : ProcData := {}

def SharedProc.view (proc : SharedProc) : ProcT where
  name := proc.name.toString
  data := proc.data

/-- The reads, of whatever sizes, that the content of a file comes in. -/
structure Fread where
  reads : Bytes → List Bytes
  whole : ∀ content, (reads content).flatten = content

section Scan

variable (memory : RawMemory) (fread : Fread)

def appendByte (name : StringBuffer) (byte : UInt8) : StringBuffer :=
  if byte = 0 then name.append memory [32] else name.append memory [byte]

def appendReads (reads : List Bytes) (name : StringBuffer) : StringBuffer :=
  reads.foldl (fun name read => read.foldl (appendByte memory) name) name

def appendStatName (files : ProcFiles) (proc : SharedProc) : Bool × SharedProc :=
  if proc.name.used = 0 then
    match statName files.statForName with
    | none => (false, proc)
    | some procname => (true, { proc with name := proc.name.append memory procname })
  else (true, proc)

def parseProcPidCmdlineShared (files : ProcFiles) (proc : SharedProc) : Bool × SharedProc :=
  if proc.data.tid = -1 then
    match files.cmdline with
    | none => (false, proc)
    | some content =>
        appendStatName memory files
          { proc with name := (appendReads memory (fread.reads content) proc.name).trim }
  else appendStatName memory files proc

def parseMandatoryShared (sys : Sys) (files : ProcFiles) (proc : SharedProc) : Bool × SharedProc :=
  match parseProcPidStat files proc.data with
  | (false, data) => (false, { proc with data := data })
  | (true, data) =>
      match parseProcPidStatus files data with
      | (false, data) => (false, { proc with data := data })
      | (true, data) =>
          match parseProcPidIo sys.hasIOStatistics files data with
          | (false, data) => (false, { proc with data := data })
          | (true, data) => parseProcPidCmdlineShared memory fread files { proc with data := data }

def scanEntryShared (sys : Sys) (starttime pid : Int) (entry : GlobEntry) (proc : SharedProc) :
    Option ProcessRecord × SharedProc :=
  match parseMandatoryShared memory fread sys entry.files
      { proc with data := setIds pid entry.path proc.data } with
  | (false, proc) => (none, proc)
  | (true, proc) =>
      (some (storeRecord sys starttime pid entry.files (parseOptional entry.files proc.view)),
        { name := proc.name.clear })

def scanEntriesShared (sys : Sys) (starttime pid : Int) :
    List GlobEntry → SharedProc → List ProcessRecord
  | [], _ => []
  | entry :: rest, proc =>
      let scanned := scanEntryShared memory fread sys starttime pid entry proc
      scanned.1.toList ++ scanEntriesShared sys starttime pid rest scanned.2

def scanStepShared (sys : Sys) (starttime pid : Int) (proc : SharedProc) (entry : GlobEntry) :
    SharedProc :=
  (scanEntryShared memory fread sys starttime pid entry proc).2

def sharedInitial : SharedProc where
  name := StringBuffer.ctor memory 64

end Scan

end SimpleProcessMonitor
