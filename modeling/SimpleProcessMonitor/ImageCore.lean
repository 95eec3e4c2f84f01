import SimpleProcessMonitor.CredentialChecks
import SimpleProcessMonitor.Library.Rows
import SimpleProcessMonitor.NameChecks
import SimpleProcessMonitor.PathCore
import SimpleProcessMonitor.StatChecks
import SimpleProcessMonitor.TaskPathChecks

/-!
What the kernel shows of a process or thread: its files as the kernel lays them out, where
they stand under `/proc`, and the record that belongs in the tree.
-/

namespace SimpleProcessMonitor

open CString Decimal

structure IoCounters where
  rchar : UInt64
  wchar : UInt64
  syscr : UInt64
  syscw : UInt64
  readBytes : UInt64
  writeBytes : UInt64
  cancelledWriteBytes : UInt64

def counterRow (label : String) (value : UInt64) : Row :=
  ⟨bytes label, [32], value.toNat, []⟩

def IoCounters.rows (io : IoCounters) : List Row := [
  counterRow "rchar:" io.rchar, counterRow "wchar:" io.wchar, counterRow "syscr:" io.syscr,
  counterRow "syscw:" io.syscw, counterRow "read_bytes:" io.readBytes,
  counterRow "write_bytes:" io.writeBytes,
  counterRow "cancelled_write_bytes:" io.cancelledWriteBytes]

def IoCounters.read (io : IoCounters) : Transfer :=
  ⟨io.rchar.toNat, io.readBytes.toNat, io.syscr.toNat⟩

def IoCounters.write (io : IoCounters) : Transfer :=
  ⟨io.wchar.toNat, io.writeBytes.toNat, io.syscw.toNat⟩

/-- A limit of a process; `none` is printed as `unlimited`. -/
abbrev LimitValue := Option UInt64

def limitText : LimitValue → Bytes
  | none => bytes "unlimited"
  | some value => decimal value.toNat

def pad (width : Nat) (text : Bytes) : Bytes :=
  text ++ List.replicate (width - text.length) 32

def limitNames : List (String × String) := [
  ("Max cpu time", "seconds"), ("Max file size", "bytes"), ("Max data size", "bytes"),
  ("Max stack size", "bytes"), ("Max core file size", "bytes"), ("Max resident set", "bytes"),
  ("Max processes", "processes"), ("Max open files", "files"), ("Max locked memory", "bytes"),
  ("Max address space", "bytes"), ("Max file locks", "locks"), ("Max pending signals", "signals"),
  ("Max msgqueue size", "bytes"), ("Max nice priority", ""), ("Max realtime priority", ""),
  ("Max realtime timeout", "us")]

def limitLine (name unit : String) (soft hard : LimitValue) : Bytes :=
  pad 25 (bytes name) ++ 32 :: (pad 20 (limitText soft) ++ 32 :: (pad 20 (limitText hard) ++
    32 :: pad 10 (bytes unit)))

/-- The soft and hard limits in the order of `limitNames`. -/
structure Limits where
  soft : Nat → LimitValue
  hard : Nat → LimitValue

def Limits.lines (limits : Limits) : List Bytes :=
  (pad 26 (bytes "Limit") ++ (pad 21 (bytes "Soft Limit") ++ (pad 21 (bytes "Hard Limit") ++
    pad 10 (bytes "Units")))) ::
    limitNames.zipIdx.map fun name =>
      limitLine name.1.1 name.1.2 (limits.soft name.2) (limits.hard name.2)

def Limits.text (limits : Limits) : Bytes :=
  limits.lines.flatMap (· ++ [10])

/-- `%d` keeps the low half of a limit. -/
def storedLimit (value : UInt64) : Int :=
  wrapSigned 32 (clampLong value.toNat)

/-- The parser takes a limit only if both values are numbers. -/
def Limits.openFiles (limits : Limits) : Limit :=
  match limits.soft 7, limits.hard 7 with
  | some soft, some hard => ⟨storedLimit soft, storedLimit hard⟩
  | _, _ => {}

/-- A file that cannot be opened, or that fails where it is read. -/
def FileRead.Unreadable (file : FileRead) : Prop :=
  file = .openFailed ∨ file = .readFailed

def FileRead.Gives (file : FileRead) : Option Bytes → Prop
  | some text => file = .content text
  | none => file.Unreadable

/-- A stream with this text, or one that cannot be opened or of which nothing comes. -/
def streamGives (stream : Option Bytes) : Option Bytes → Prop
  | some text => stream = some text
  | none => stream.getD [] = []

/-- A directory with so many entries apart from the two basic ones, or one that `readdir` does
not get through. -/
def dirGives (directory : Option DirRead) : Option Nat → Prop
  | some opened => directory = some ⟨opened + 2, false⟩
  | none => ∀ found ∈ directory, found.failed = true ∨ found.entries < 2

/-- A task while it is read. The stat file is read again for the name; `none` stands for a
file or directory that the reader does not get. -/
structure TaskImage where
  line : StatLine
  again : StatLine
  name : ProcessName
  status : StatusLayout
  io : Option IoCounters
  cmdline : Bytes
  descriptors : Option Nat
  limits : Option Limits
  attrCurrent : FileRead

/-- All processes, or the threads of one. -/
inductive ScanMode
  | all
  | threads (pid : PositiveInt)

namespace ScanMode

def pid : ScanMode → Int
  | all => allProcesses
  | threads pid => pid.value

def processDirectory : ScanMode → PositiveInt → Bytes
  | all, id => bytes "/proc/" ++ signedDecimal id.value
  | threads pid, _ => bytes "/proc/" ++ signedDecimal pid.value

def directory : ScanMode → PositiveInt → Bytes
  | all, id => bytes "/proc/" ++ signedDecimal id.value
  | threads pid, id => taskPath pid.value id.value

end ScanMode

namespace TaskImage

variable (image : TaskImage)

/-- A process is shown with its command line, if that is visible. -/
def command : ScanMode → Bytes
  | .all =>
      let visible := trim (spaced image.cmdline)
      if visible = [] then image.again.name else visible
  | .threads _ => image.again.name

def secattr : Bytes :=
  match image.attrCurrent with
  | .content text => trim (cString (text.take (bufferStrlen - 1)))
  | _ => []

def openFiles : Limit :=
  match image.descriptors, image.limits with
  | some _, some limits => limits.openFiles
  | _, _ => {}

def counters (sys : Sys) : Transfer × Transfer :=
  match sys.hasIOStatistics, image.io with
  | true, some io => (transfer io.read, transfer io.write)
  | _, _ => ({}, {})

def record (sys : Sys) (starttime : Int) (mode : ScanMode) (id : PositiveInt) (visit : Visit) :
    ProcessRecord where
  pid := id.value
  ppid := image.line.ppid
  cred := ⟨image.status.uid.stored, image.status.euid.stored, image.status.gid.stored⟩
  threadsSelf := image.line.numThreads
  uptime :=
    if 0 < starttime then
      truncate ((visit.uptimeMilli / 100 : ℚ) / 10 -
        (starttime + truncate (image.line.starttime / sys.info.hz) : Int))
    else 0
  cpuTime := ((image.line.utime + image.line.stime) % 2 ^ 64 : Int) / sys.info.hz * 100
  memoryUsage := (image.line.rss * sys.info.pageSize % 2 ^ 64).toNat
  read := (image.counters sys).1
  readTime := (visit.readMilli % 2 ^ 64).toNat
  write := (image.counters sys).2
  writeTime := (visit.readMilli % 2 ^ 64).toNat
  zombie := image.line.state == 90
  cmdline := some (image.command mode)
  secattr := some image.secattr
  filedescriptorsUsage := (image.descriptors.getD 0 : Nat)
  filedescriptorsLimit := image.openFiles

/-- The files of a task, each at the moment it is read. -/
structure Shown (mode : ScanMode) (id : PositiveInt) (visit : Visit) : Prop where
  stat : (visit.procfs .stat).file (mode.directory id ++ bytes "/stat") =
    .content image.line.render
  status : (visit.procfs .status).file (mode.directory id ++ bytes "/status") =
    .content (statusText image.name image.status)
  io : ((visit.procfs .io).file (mode.directory id ++ bytes "/io")).Gives
    (image.io.map fun io => rowsText io.rows)
  cmdline : (visit.procfs .cmdline).stream (mode.processDirectory id ++ bytes "/cmdline") =
    some image.cmdline
  again : (visit.procfs .statForName).file (mode.directory id ++ bytes "/stat") =
    .content image.again.render
  descriptors : dirGives ((visit.procfs .fd).directory (mode.processDirectory id ++ bytes "/fd"))
    image.descriptors
  limits : streamGives ((visit.procfs .limits).stream (mode.processDirectory id ++ bytes "/limits"))
    (image.limits.map Limits.text)
  attrCurrent : (visit.procfs .attrCurrent).file (mode.directory id ++ bytes "/attr/current") =
    image.attrCurrent

end TaskImage

/-- The name does not stand in for the lines of the status file that the parser looks for. -/
structure TaskImage.Unforged (image : TaskImage) : Prop where
  uid : Harmless "Uid:" uidFormat [image.status.uid.stored, image.status.euid.stored] image.name
    (behindName image.name image.status)
  gid : Harmless "Gid:" gidFormat [image.status.gid.stored] image.name
    (behindName image.name image.status)

/-- A task that ended before it was named: the name of a thread, and of a process whose command
line is blank, is in the stat file, which is read again for it. -/
def Nameless (mode : ScanMode) (id : PositiveInt) (visit : Visit) : Prop :=
  match mode with
  | .all => (visit.procfs .cmdline).file (mode.processDirectory id ++ bytes "/cmdline") = .openFailed ∨
      ((visit.procfs .statForName).file (mode.directory id ++ bytes "/stat")).Unreadable ∧
        ∃ content, trim (spaced content) = [] ∧
          (visit.procfs .cmdline).stream (mode.processDirectory id ++ bytes "/cmdline") = some content
  | .threads _ => ((visit.procfs .statForName).file (mode.directory id ++ bytes "/stat")).Unreadable

/-- A task that ended while the files were read without which the scan does not store it. -/
def Gone (mode : ScanMode) (id : PositiveInt) (visit : Visit) : Prop :=
  ((visit.procfs .stat).file (mode.directory id ++ bytes "/stat")).Unreadable ∨
    ((visit.procfs .status).file (mode.directory id ++ bytes "/status")).Unreadable ∨
      Nameless mode id visit

/-- One that ended before its transfer counters were read. -/
def Uncounted (mode : ScanMode) (id : PositiveInt) (visit : Visit) : Prop :=
  ((visit.procfs .stat).file (mode.directory id ++ bytes "/stat")).Unreadable ∨
    ((visit.procfs .status).file (mode.directory id ++ bytes "/status")).Unreadable ∨
      ((visit.procfs .io).file (mode.directory id ++ bytes "/io")).Unreadable

/-- A directory that `glob` found, and the task behind it unless it is gone. -/
structure Listed where
  id : PositiveInt
  visit : Visit
  image : Option TaskImage

namespace Listed

def Shown (mode : ScanMode) (listed : Listed) : Prop :=
  match listed.image with
  | none => Gone mode listed.id listed.visit
  | some image => image.Shown mode listed.id listed.visit

def path (mode : ScanMode) (listed : Listed) : Bytes × Visit :=
  (mode.directory listed.id, listed.visit)

def record (sys : Sys) (starttime : Int) (mode : ScanMode) (listed : Listed) :
    Option ProcessRecord :=
  listed.image.map fun image => image.record sys starttime mode listed.id listed.visit

end Listed

end SimpleProcessMonitor
