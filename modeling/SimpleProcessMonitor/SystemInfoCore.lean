import Mathlib.Data.Rat.Floor
import SimpleProcessMonitor.Library.CString

/-!
The parts of `system_info.c` and `file.c` that the process scan depends on. Machine
integers are `Int` and `Nat` with explicit wrapping; `float` and `double` are exact
rationals.
-/

namespace SimpleProcessMonitor

open CString

/-- `STRLEN`, the size of the buffers for a line or a name. -/
def bufferStrlen : Nat := 256

inductive FileRead
  | openFailed
  | readFailed
  | content (text : Bytes)
  deriving DecidableEq

/-- The bytes `file_readProc` leaves before the terminating NUL of a buffer of
`bufSize` bytes, or `none` where it returns false. -/
def fileReadProc (bufSize : Nat) : FileRead → Option Bytes
  | .openFailed => none
  | .readFailed => none
  | .content text => some (text.take (bufSize - 1))

structure FixedSystemInfo where
  pageSize : Int
  hz : ℚ
  cpuCount : Int

structure CpuUsageTime where
  user : Nat := 0
  nice : Nat := 0
  system : Nat := 0
  idle : Nat := 0
  iowait : Nat := 0
  hardirq : Nat := 0
  softirq : Nat := 0
  steal : Nat := 0
  guest : Nat := 0
  guestNice : Nat := 0
  total : Nat := 0
  deriving DecidableEq

def cpuFormat : List Directive :=
  litAll "cpu" ++ (List.replicate 10 [Directive.space, Directive.int .ulong]).flatten

def cpuArguments : List (Int → CpuUsageTime → CpuUsageTime) := [
  fun value time => { time with user := value.toNat },
  fun value time => { time with nice := value.toNat },
  fun value time => { time with system := value.toNat },
  fun value time => { time with idle := value.toNat },
  fun value time => { time with iowait := value.toNat },
  fun value time => { time with hardirq := value.toNat },
  fun value time => { time with softirq := value.toNat },
  fun value time => { time with steal := value.toNat },
  fun value time => { time with guest := value.toNat },
  fun value time => { time with guestNice := value.toNat }]

/-- The `switch` on the number of counters read: the fields each old kernel lacks are
cleared, any other number is an error. -/
def clearMissing (count : Nat) (time : CpuUsageTime) : Option CpuUsageTime :=
  match count with
  | 4 => some { time with iowait := 0, hardirq := 0, softirq := 0, steal := 0, guest := 0, guestNice := 0 }
  | 5 => some { time with hardirq := 0, softirq := 0, steal := 0, guest := 0, guestNice := 0 }
  | 7 => some { time with steal := 0, guest := 0, guestNice := 0 }
  | 8 => some { time with guest := 0, guestNice := 0 }
  | 9 => some { time with guestNice := 0 }
  | 10 => some time
  | _ => none

/-- `_getCpuUsateTime` on the file `/proc/stat`; `time` is what the caller's structure
held before the call. -/
def getCpuUsateTime (stat : FileRead) (time : CpuUsageTime) : Option CpuUsageTime :=
  match fileReadProc 8192 stat with
  | none => none
  | some buf =>
      let values := sscanf cpuFormat (cString buf)
      (clearMissing values.length (assign cpuArguments values time)).map fun time =>
        { time with total := (time.user + time.nice + time.system + time.idle + time.iowait +
            time.hardirq + time.softirq + time.steal) % 2 ^ 64 }

/-- `stack` is the indeterminate initial value of the local structure. -/
def getNowSingleCoreCpuTime (info : FixedSystemInfo) (stat : FileRead)
    (stack : CpuUsageTime) : Nat :=
  match getCpuUsateTime stat stack with
  | none => 0
  | some time => time.total / (info.cpuCount % 2 ^ 64).toNat

end SimpleProcessMonitor
