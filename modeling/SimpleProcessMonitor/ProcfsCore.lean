import SimpleProcessMonitor.SystemInfoCore

/-!
The `/proc` scan of `ProcessTree.c`: the parsers of one process' (or thread's) files and
the loop of `_initprocesstree_sysdep` over the globbed paths. The files of each process
are inputs; the `Proc_T` that the loop reuses is passed from one process to the next.
-/

namespace SimpleProcessMonitor

open CString

def allProcesses : Int := -1

structure Cred where
  uid : Int := 0
  euid : Int := 0
  gid : Int := 0
  deriving DecidableEq

structure Limit where
  soft : Int := 0
  hard : Int := 0
  deriving DecidableEq

structure Transfer where
  bytes : Int := 0
  bytesPhysical : Int := 0
  operations : Int := 0
  deriving DecidableEq

structure ProcFiledescriptors where
  opened : Int := 0
  limit : Limit := {}
  deriving DecidableEq

structure ProcData where
  pid : Int := 0
  tid : Int := 0
  ppid : Int := 0
  cred : Cred := {}
  itemState : Int := 0
  itemCutime : Int := 0
  itemCstime : Int := 0
  itemRss : Int := 0
  itemThreads : Int := 0
  itemUtime : Int := 0
  itemStime : Int := 0
  itemStarttime : Int := 0
  read : Transfer := {}
  write : Transfer := {}
  filedescriptors : ProcFiledescriptors := {}
  secattr : Bytes := []
  deriving DecidableEq

structure ProcT where
  name : Bytes := []
  data : ProcData := {}
  deriving DecidableEq

/-- The outcome of iterating `/proc/<pid>/fd`: the number of entries met and whether
`readdir` stopped on an error. -/
structure DirRead where
  entries : Nat
  failed : Bool

/-- Everything the scan reads about one process. The stat file is opened a second time
for the fallback name, and the clock is read twice. `cmdline` and `limits` are `none`
where `fopen` fails, `fd` where `opendir` does. -/
structure ProcFiles where
  stat : FileRead
  status : FileRead
  io : FileRead
  cmdline : Option Bytes
  statForName : FileRead
  fd : Option DirRead
  limits : Option Bytes
  attrCurrent : FileRead
  uptimeMilli : Int
  readMilli : Int

structure GlobEntry where
  path : Bytes
  files : ProcFiles

def statFormat : List Directive :=
  [.char, .space, .int .int] ++
  (List.replicate 9 [Directive.space, Directive.skip]).flatten ++
  [.space, .int .ulong, .space, .int .ulong, .space, .int .long, .space, .int .long,
    .space, .skip, .space, .skip, .space, .int .int, .space, .skip, .space, .int .ulong,
    .space, .skip, .space, .int .long] ++
  (List.replicate 15 [Directive.space, Directive.skip]).flatten ++ [.space]

def statArguments : List (Int → ProcData → ProcData) := [
  fun value data => { data with itemState := value },
  fun value data => { data with ppid := value },
  fun value data => { data with itemUtime := value },
  fun value data => { data with itemStime := value },
  fun value data => { data with itemCutime := value },
  fun value data => { data with itemCstime := value },
  fun value data => { data with itemThreads := value },
  fun value data => { data with itemStarttime := value },
  fun value data => { data with itemRss := value }]

/-- A text that ends at its last `)` leaves nothing to scan (the kernel never writes one;
the C code would read on behind the terminator). -/
def parseProcPidStat (files : ProcFiles) (data : ProcData) : Bool × ProcData :=
  match fileReadProc 8192 files.stat with
  | none => (false, data)
  | some buf =>
      match strrchr 41 (cString buf) with
      | none => (false, data)
      | some tmp =>
          let values := sscanf statFormat (tmp.drop 2)
          (values.length == 9, assign statArguments values data)

def uidFormat : List Directive := [.space, .int .int, .space, .int .int]

def gidFormat : List Directive := [.space, .int .int]

def uidArguments : List (Int → ProcData → ProcData) := [
  fun value data => { data with cred.uid := value },
  fun value data => { data with cred.euid := value }]

def gidArguments : List (Int → ProcData → ProcData) := [
  fun value data => { data with cred.gid := value }]

/-- `strstr` for a key, then `sscanf` behind it. The second component is false unless
every argument was assigned; the third is where the key was found. -/
def scanAfter (key : String) (format : List Directive)
    (arguments : List (Int → ProcData → ProcData)) (text : Bytes) (data : ProcData) :
    Option (Bool × ProcData × Bytes) :=
  match strstr (bytes key) text with
  | none => none
  | some tmp =>
      let values := sscanf format (tmp.drop (bytes key).length)
      some (values.length == arguments.length, assign arguments values data, tmp)

def parseProcPidStatus (files : ProcFiles) (data : ProcData) : Bool × ProcData :=
  match fileReadProc 4096 files.status with
  | none => (false, data)
  | some buf =>
      match scanAfter "Uid:" uidFormat uidArguments (cString buf) data with
      | none => (false, data)
      | some (false, data, _) => (false, data)
      | some (true, data, _) =>
          match scanAfter "Gid:" gidFormat gidArguments (cString buf) data with
          | none => (false, data)
          | some (matched, data, _) => (matched, data)

def counterFormat : List Directive := [.space, .int .ulong]

def ioKeys : List (String × (Int → ProcData → ProcData)) := [
  ("rchar:", fun value data => { data with read.bytes := value }),
  ("wchar:", fun value data => { data with write.bytes := value }),
  ("syscr:", fun value data => { data with read.operations := value }),
  ("syscw:", fun value data => { data with write.operations := value }),
  ("read_bytes:", fun value data => { data with read.bytesPhysical := value }),
  ("write_bytes:", fun value data => { data with write.bytesPhysical := value })]

/-- Each key is searched from where the previous one was found. -/
def scanIoKeys : List (String × (Int → ProcData → ProcData)) → Bytes → ProcData →
    Bool × ProcData
  | [], _, data => (true, data)
  | (key, set) :: rest, text, data =>
      match scanAfter key counterFormat [set] text data with
      | none => (false, data)
      | some (false, data, _) => (false, data)
      | some (true, data, tmp) => scanIoKeys rest tmp data

def parseProcPidIo (hasIOStatistics : Bool) (files : ProcFiles) (data : ProcData) :
    Bool × ProcData :=
  if hasIOStatistics then
    match fileReadProc 4096 files.io with
    | some buf => scanIoKeys ioKeys (cString buf) data
    | none => (true, data)
  else (true, data)

def appendCmdlineByte (name : Bytes) (byte : UInt8) : Bytes :=
  if byte = 0 then name ++ [32] else name ++ [byte]

def readCmdline (content : Bytes) (name : Bytes) : Bytes :=
  (chunks (bufferStrlen - 1) content.length content).foldl
    (fun name chunk => chunk.foldl appendCmdlineByte name) name

def statName (stat : FileRead) : Option Bytes :=
  match fileReadProc 8192 stat with
  | none => none
  | some buffer =>
      match strrchr 41 (cString buffer) with
      | none => none
      | some tmp =>
          match strchr 40 ((cString buffer).take ((cString buffer).length - tmp.length)) with
          | none => none
          | some procname => some (procname.drop 1)

def parseProcPidCmdline (files : ProcFiles) (proc : ProcT) : Bool × ProcT :=
  let fallback := fun (proc : ProcT) =>
    if proc.name = [] then
      match statName files.statForName with
      | none => (false, proc)
      | some procname => (true, { proc with name := proc.name ++ procname })
    else (true, proc)
  if proc.data.tid = -1 then
    match files.cmdline with
    | none => (false, proc)
    | some content => fallback { proc with name := trim (readCmdline content proc.name) }
  else fallback proc

/-- A failed `read` still clears the first byte of the buffer, a failed `open` does not. -/
def parseProcPidAttrCurrent (files : ProcFiles) (data : ProcData) : Bool × ProcData :=
  match files.attrCurrent with
  | .openFailed => (false, data)
  | .readFailed => (false, { data with secattr := [] })
  | .content text => (true, { data with secattr := trim (cString (text.take (bufferStrlen - 1))) })

def limitFormat : List Directive :=
  litAll "Max" ++ [.space] ++ litAll "open" ++ [.space] ++ litAll "files" ++
    [.space, .int .int, .space, .int .int]

def findLimit : List Bytes → Option Limit
  | [] => none
  | line :: rest =>
      match sscanf limitFormat (cString line) with
      | [softLimit, hardLimit] => some ⟨softLimit, hardLimit⟩
      | _ => findLimit rest

def parseProcFdCount (files : ProcFiles) (data : ProcData) : Bool × ProcData :=
  match files.fd with
  | none => (false, data)
  | some dir =>
      if dir.failed then (false, data)
      else if dir.entries < 2 then (false, data)
      else
        let data := { data with filedescriptors.opened := (dir.entries : Int) - 2 }
        match files.limits with
        | none => (false, data)
        | some text =>
            match findLimit (fgetsLines bufferStrlen text.length text) with
            | none => (true, data)
            | some limit => (true, { data with filedescriptors.limit := limit })

structure ProcessRecord where
  pid : Int := 0
  ppid : Int := 0
  cred : Cred := {}
  threadsSelf : Int := 0
  uptime : Int := 0
  cpuTime : ℚ := 0
  memoryUsage : Nat := 0
  read : Transfer := {}
  readTime : Nat := 0
  write : Transfer := {}
  writeTime : Nat := 0
  zombie : Bool := false
  cmdline : Option Bytes := none
  secattr : Option Bytes := none
  filedescriptorsUsage : Int := 0
  filedescriptorsLimit : Limit := {}
  deriving DecidableEq

/-- The system-wide constants of the scan: `g_fixed_system_info` and `_statistics`. -/
structure Sys where
  info : FixedSystemInfo
  hasIOStatistics : Bool

/-- Conversion of a `double` to an integer type drops the fraction. -/
def truncate (value : ℚ) : Int :=
  if 0 ≤ value then value.floor else value.ceil

def transfer (data : Transfer) : Transfer :=
  ⟨wrapSigned 64 data.bytes, wrapSigned 64 data.bytesPhysical, wrapSigned 64 data.operations⟩

def storeRecord (sys : Sys) (starttime : Int) (pid : Int) (files : ProcFiles) (proc : ProcT) :
    ProcessRecord where
  pid := if pid = allProcesses then proc.data.pid else proc.data.tid
  ppid := proc.data.ppid
  cred := proc.data.cred
  threadsSelf := proc.data.itemThreads
  uptime :=
    if 0 < starttime then
      truncate ((files.uptimeMilli / 100 : ℚ) / 10 -
        (starttime + truncate (proc.data.itemStarttime / sys.info.hz) : Int))
    else 0
  cpuTime := ((proc.data.itemUtime + proc.data.itemStime) % 2 ^ 64 : Int) / sys.info.hz * 100
  memoryUsage := (proc.data.itemRss * sys.info.pageSize % 2 ^ 64).toNat
  read := transfer proc.data.read
  readTime := (files.readMilli % 2 ^ 64).toNat
  write := transfer proc.data.write
  writeTime := (files.readMilli % 2 ^ 64).toNat
  zombie := proc.data.itemState == 90
  cmdline := some proc.name
  secattr := some proc.data.secattr
  filedescriptorsUsage := proc.data.filedescriptors.opened
  filedescriptorsLimit := proc.data.filedescriptors.limit

def countDigits : Nat → Nat → Nat
  | 0, _ => 0
  | fuel + 1, pidCopy => if 0 < pidCopy then countDigits fuel (pidCopy / 10) + 1 else 0

def setIds (pid : Int) (path : Bytes) (data : ProcData) : ProcData :=
  if pid = allProcesses then { data with pid := atoi (path.drop 6), tid := -1 }
  else
    let digits := countDigits pid.toNat pid.toNat
    { data with pid := pid, tid := atoi (path.drop (6 + digits + 6)) }

def parseMandatory (sys : Sys) (files : ProcFiles) (proc : ProcT) : Bool × ProcT :=
  match parseProcPidStat files proc.data with
  | (false, data) => (false, { proc with data := data })
  | (true, data) =>
      match parseProcPidStatus files data with
      | (false, data) => (false, { proc with data := data })
      | (true, data) =>
          match parseProcPidIo sys.hasIOStatistics files data with
          | (false, data) => (false, { proc with data := data })
          | (true, data) => parseProcPidCmdline files { proc with data := data }

def parseOptional (files : ProcFiles) (proc : ProcT) : ProcT :=
  let data := (parseProcFdCount files proc.data).2
  { proc with data := (parseProcPidAttrCurrent files data).2 }

/-- One round of the scan loop: the record it stores, if any, and the `Proc_T` it leaves
for the next round. -/
def scanEntry (sys : Sys) (starttime pid : Int) (entry : GlobEntry) (proc : ProcT) :
    Option ProcessRecord × ProcT :=
  match parseMandatory sys entry.files { proc with data := setIds pid entry.path proc.data } with
  | (false, proc) => (none, proc)
  | (true, proc) =>
      (some (storeRecord sys starttime pid entry.files (parseOptional entry.files proc)), {})

def scanEntries (sys : Sys) (starttime pid : Int) : List GlobEntry → ProcT → List ProcessRecord
  | [], _ => []
  | entry :: rest, proc =>
      let scanned := scanEntry sys starttime pid entry proc
      scanned.1.toList ++ scanEntries sys starttime pid rest scanned.2

/-- What one call of `ProcessTree_init` meets outside: the glob result (`none` if `glob`
fails), the boot time, and `/proc/stat`. -/
structure Scan where
  glob : Option (List GlobEntry)
  starttime : Int
  procStat : FileRead
  stack : CpuUsageTime := {}

/-- `_initprocesstree_sysdep`; `none` is the early return that leaves `*reference` alone. -/
def initprocesstreeSysdep (sys : Sys) (scan : Scan) (pid : Int) : Option (List ProcessRecord) :=
  scan.glob.map fun entries => scanEntries sys scan.starttime pid entries {}

end SimpleProcessMonitor
