import SimpleProcessMonitor.Library.Decimal
import SimpleProcessMonitor.ProcfsCore
import SimpleProcessMonitor.SystemUsageCore

/-!
The names under which the parsers of one process open its files, and `/proc` as a map from
names to contents. Every access has its own moment: the files change while a process is read.
-/

namespace SimpleProcessMonitor

open CString Decimal

def snprintf (size : Nat) (text : Bytes) : Bytes :=
  text.take (size - 1)

def pathMax : Nat := 4096

/-- What `open` and `read` meet under a name, and `opendir` and `readdir`. -/
structure Procfs where
  file : Bytes → FileRead
  directory : Bytes → Option DirRead

/-- All that `fread` or `fgets` get after `fopen`: nothing where `read` fails. -/
def Procfs.stream (procfs : Procfs) (filename : Bytes) : Option Bytes :=
  match procfs.file filename with
  | .openFailed => none
  | .readFailed => some []
  | .content text => some text

def procFilename (name : Bytes) (pid tid : Int) : Bytes :=
  if pid < 0 then snprintf bufferStrlen (bytes "/proc/" ++ name)
  else if tid < 0 then snprintf bufferStrlen (bytes "/proc/" ++ (signedDecimal pid ++ 47 :: name))
  else
    snprintf bufferStrlen (bytes "/proc/" ++
      (signedDecimal pid ++ (bytes "/task/" ++ (signedDecimal tid ++ 47 :: name))))

inductive Access
  | stat
  | status
  | io
  | cmdline
  | statForName
  | fd
  | limits
  | attrCurrent

/-- One round of the scan as it meets the outside. -/
structure Visit where
  procfs : Access → Procfs
  uptimeMilli : Int
  readMilli : Int

/-- The descriptors and limits are those of the process also for a thread. -/
def Visit.files (visit : Visit) (pid tid : Int) : ProcFiles where
  stat := (visit.procfs .stat).file (procFilename (bytes "stat") pid tid)
  status := (visit.procfs .status).file (procFilename (bytes "status") pid tid)
  io := (visit.procfs .io).file (procFilename (bytes "io") pid tid)
  cmdline := (visit.procfs .cmdline).stream
    (snprintf bufferStrlen (bytes "/proc/" ++ (signedDecimal pid ++ bytes "/cmdline")))
  statForName := (visit.procfs .statForName).file (procFilename (bytes "stat") pid tid)
  fd := (visit.procfs .fd).directory
    (snprintf pathMax (bytes "/proc/" ++ (signedDecimal pid ++ bytes "/fd")))
  limits := (visit.procfs .limits).stream
    (snprintf pathMax (bytes "/proc/" ++ (signedDecimal pid ++ bytes "/limits")))
  attrCurrent := (visit.procfs .attrCurrent).file (procFilename (bytes "attr/current") pid tid)
  uptimeMilli := visit.uptimeMilli
  readMilli := visit.readMilli

def Visit.entry (visit : Visit) (pid : Int) (path : Bytes) : GlobEntry where
  path := path
  files := visit.files (setIds pid path {}).pid (setIds pid path {}).tid

structure Outside where
  globbed : Option (List (Bytes × Visit))
  starttime : Int
  procStat : Procfs
  stack : CpuUsageTime := {}

def Outside.scan (outside : Outside) (pid : Int) : Scan where
  glob := outside.globbed.map fun paths => paths.map fun path => path.2.entry pid path.1
  starttime := outside.starttime
  procStat := outside.procStat.file (procFilename (bytes "stat") (-1) (-1))
  stack := outside.stack

structure SystemVisit where
  loadavg : Procfs
  meminfo : Procfs
  arcstats : Procfs
  stat : Procfs
  fileNr : Procfs

def SystemVisit.files (visit : SystemVisit) (stack : CpuUsageTime) : SystemFiles where
  loadavg := visit.loadavg.file (procFilename (bytes "loadavg") (-1) (-1))
  meminfo := visit.meminfo.file (procFilename (bytes "meminfo") (-1) (-1))
  arcstats := visit.arcstats.stream (bytes "/proc/spl/kstat/zfs/arcstats")
  stat := visit.stat.file (procFilename (bytes "stat") (-1) (-1))
  stack := stack
  fileNr := visit.fileNr.stream (bytes "/proc/sys/fs/file-nr")

end SimpleProcessMonitor
