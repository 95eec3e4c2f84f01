import SimpleProcessMonitor.SystemInfoCore

/-!
The rest of `system_info.c`: the library constructor, `init_system_info` and
`update_system_info` with its four stages. A published percentage is `none` where the
`double` division behind it has a zero divisor.
-/

namespace SimpleProcessMonitor

open CString

structure Globals where
  fixed : FixedSystemInfo
  memorySize : Nat

structure Sysconf where
  clkTck : Int
  pageSize : Int
  nprocessorsConf : Int

def memTotalFormat : List Directive := litAll "MemTotal:" ++ [.space, .int .ulong]

def findLine (format : List Directive) : List Bytes → Option Nat
  | [] => none
  | line :: rest =>
      match sscanf format (cString line) with
      | [value] => some value.toNat
      | _ => findLine format rest

def fileLines (text : Bytes) : List Bytes :=
  fgetsLines bufferStrlen text.length text

/-- Each member is assigned before it is checked, so an early return leaves the members
assigned so far. -/
def initFixedSystemInfo (sysconf : Sysconf) (meminfo : Option Bytes) (globals : Globals) :
    Bool × Globals :=
  let globals := { globals with fixed.hz := (sysconf.clkTck : ℚ) }
  if globals.fixed.hz ≤ 0 then (false, globals)
  else
    let globals := { globals with fixed.pageSize := sysconf.pageSize }
    if globals.fixed.pageSize ≤ 0 then (false, globals)
    else
      let globals := { globals with fixed.cpuCount := wrapSigned 32 sysconf.nprocessorsConf }
      if globals.fixed.cpuCount < 0 then (false, globals)
      else
        let globals :=
          if globals.fixed.cpuCount = 0 then { globals with fixed.cpuCount := 1 } else globals
        match meminfo with
        | none => (true, globals)
        | some text =>
            match findLine memTotalFormat (fileLines text) with
            | none => (true, { globals with memorySize := 0 })
            | some size => (true, { globals with memorySize := size * 1024 % 2 ^ 64 })

def zeroGlobals : Globals := ⟨⟨0, 0, 0⟩, 0⟩

/-- The whole body is `assert(_init_fixed_system_info(&g_fixed_system_info))`: nothing with
`NDEBUG`, and otherwise `none` where the assertion aborts the program. -/
def libraryConstructor (ndebug : Bool) (sysconf : Sysconf) (meminfo : Option Bytes) :
    Option Globals :=
  if ndebug then some zeroGlobals
  else
    match initFixedSystemInfo sysconf meminfo zeroGlobals with
    | (false, _) => none
    | (true, globals) => some globals

structure Usage where
  percent : ℚ := 0
  bytes : Nat := 0

structure SystemFiledescriptors where
  allocated : Int := 0
  unused : Int := 0
  maximum : Int := 0

structure SystemCpuUsage where
  old : CpuUsageTime := {}
  user : Option ℚ := some 0
  nice : Option ℚ := some 0
  system : Option ℚ := some 0
  idle : Option ℚ := some 0
  iowait : Option ℚ := some 0
  hardirq : Option ℚ := some 0
  softirq : Option ℚ := some 0
  steal : Option ℚ := some 0
  guest : Option ℚ := some 0
  guestNice : Option ℚ := some 0

structure SystemInfo where
  cpu : SystemCpuUsage := {}
  memory : Usage := {}
  swapSize : Nat := 0
  swap : Usage := {}
  filedescriptors : SystemFiledescriptors := {}
  loadavg : ℚ × ℚ × ℚ := (0, 0, 0)

structure SystemState where
  globals : Globals
  si : SystemInfo

structure SystemFiles where
  loadavg : FileRead
  meminfo : FileRead
  arcstats : Option Bytes
  stat : FileRead
  stack : CpuUsageTime := {}
  fileNr : Option Bytes

def scanDigits (text : Bytes) : Bytes × Bytes :=
  (text.takeWhile isdigit, text.dropWhile isdigit)

def scanExponent (text : Bytes) : Option (Int × Bytes) :=
  match text with
  | [] => some (0, [])
  | first :: rest =>
      if first = 101 ∨ first = 69 then
        let signed := readSign rest
        let digits := scanDigits signed.2
        -- no digit behind the `e`: a matching failure in the C standard, but glibc keeps the number
        if digits.1 = [] then none
        else some (if signed.1 then -(digitsValue digits.1 : Int) else digitsValue digits.1, digits.2)
      else some (0, first :: rest)

/-- `%lf` for decimal spellings. It also takes `inf`, `nan` and hexadecimal numbers, which are
left out here: the kernel writes none of them. -/
def scanDouble (text : Bytes) : Option (ℚ × Bytes) :=
  let signed := readSign (skipSpace text)
  let whole := scanDigits signed.2
  let fraction := match whole.2 with
    | 46 :: rest => scanDigits rest
    | rest => ([], rest)
  if whole.1 ++ fraction.1 = [] then none
  else
    (scanExponent fraction.2).map fun exponent =>
      let magnitude : ℚ := digitsValue (whole.1 ++ fraction.1) *
        (10 : ℚ) ^ (exponent.1 - (fraction.1.length : Int))
      (if signed.1 then -magnitude else magnitude, exponent.2)

def getloadavgSysdep (loadavg : FileRead) : Option (ℚ × ℚ × ℚ) := do
  let buf ← fileReadProc bufferStrlen loadavg
  let (first, rest) ← scanDouble (cString buf)
  let (second, rest) ← scanDouble rest
  let (third, _) ← scanDouble rest
  return (first, second, third)

def scanMemoryKey (key : String) (text : Bytes) : Option Nat :=
  match strstr (bytes key) text with
  | none => none
  | some ptr =>
      match sscanf [.int .ulong] (ptr.drop (bytes key).length) with
      | [value] => some value.toNat
      | _ => none

def wrap64 (value : Int) : Nat := (value % 2 ^ 64).toNat

def arcSizeFormat : List Directive :=
  litAll "size" ++ [.space, .skip, .space, .int .ulong]

def updateMemorySize (text : Bytes) (globals : Globals) : Globals :=
  match scanMemoryKey "MemTotal:" text with
  | none => globals
  | some memTotal => { globals with memorySize := memTotal * 1024 % 2 ^ 64 }

def memoryInUse (text : Bytes) (arcstats : Option Bytes) (memorySize : Nat) : Option Nat :=
  match scanMemoryKey "MemAvailable:" text with
  | some memAvailable => some (wrap64 (memorySize - memAvailable * 1024))
  | none =>
      match scanMemoryKey "MemFree:" text with
      | none => none
      | some memFree =>
          let buffers := (scanMemoryKey "Buffers:" text).getD 0
          let cached := (scanMemoryKey "Cached:" text).getD 0
          let slabreclaimable := (scanMemoryKey "SReclaimable:" text).getD 0
          let zfsarcsize := (arcstats.bind fun lines => findLine arcSizeFormat (fileLines lines)).getD 0
          some (wrap64 (memorySize - zfsarcsize - (memFree + buffers + cached + slabreclaimable) * 1024))

def memoryError (state : SystemState) : SystemState :=
  { state with si.memory.bytes := 0, si.swapSize := 0 }

def usedSystemMemorySysdep (meminfo : FileRead) (arcstats : Option Bytes) (state : SystemState) :
    Bool × SystemState :=
  match fileReadProc 2048 meminfo with
  | none => (false, memoryError state)
  | some buf =>
      let text := cString buf
      let state := { state with globals := updateMemorySize text state.globals }
      match memoryInUse text arcstats state.globals.memorySize with
      | none => (false, memoryError state)
      | some used =>
          let state := { state with si.memory.bytes := used }
          match scanMemoryKey "SwapTotal:" text with
          | none => (false, memoryError state)
          | some swapTotal =>
              match scanMemoryKey "SwapFree:" text with
              | none => (false, memoryError state)
              | some swapFree =>
                  (true, { state with
                    si.swapSize := swapTotal * 1024 % 2 ^ 64,
                    si.swap.bytes := wrap64 ((swapTotal - swapFree) * 1024) })

/-- `none` stands for the quotient of a division by zero. -/
def usagePercent (previous current : Nat) (total : ℚ) : Option ℚ :=
  if current < previous then some 0
  else if total = 0 then none
  else some ((current - previous : Nat) / total * 100)

def cpuPercentages (old now : CpuUsageTime) : SystemCpuUsage :=
  let delta : ℚ := wrap64 (now.total - old.total)
  { old := now
    user := usagePercent (wrap64 (old.user - old.guest)) (wrap64 (now.user - now.guest)) delta
    nice := usagePercent (wrap64 (old.nice - old.guestNice)) (wrap64 (now.nice - now.guestNice)) delta
    system := usagePercent old.system now.system delta
    idle := usagePercent old.idle now.idle delta
    iowait := usagePercent old.iowait now.iowait delta
    hardirq := usagePercent old.hardirq now.hardirq delta
    softirq := usagePercent old.softirq now.softirq delta
    steal := usagePercent old.steal now.steal delta
    guest := usagePercent old.guest now.guest delta
    guestNice := usagePercent old.guestNice now.guestNice delta }

def unknownPercentages (now : CpuUsageTime) : SystemCpuUsage where
  old := now
  user := some (-1)
  nice := some (-1)
  system := some (-1)
  idle := some (-1)
  iowait := some (-1)
  hardirq := some (-1)
  softirq := some (-1)
  steal := some (-1)
  guest := some (-1)
  guestNice := some (-1)

/-- The error exit clears every percentage but `idle`. -/
def usedSystemCpuSysdep (stat : FileRead) (stack : CpuUsageTime) (cpu : SystemCpuUsage) : Bool × SystemCpuUsage :=
  match getCpuUsateTime stat stack with
  | none => (false, { old := cpu.old, idle := cpu.idle })
  | some now =>
      if cpu.old.total = 0 then (true, unknownPercentages now)
      else (true, cpuPercentages cpu.old now)

def fileNrFormat : List Directive :=
  [.int .long, .space, .int .long, .space, .int .long, .space]

def fileNrArguments : List (Int → SystemFiledescriptors → SystemFiledescriptors) := [
  fun value files => { files with allocated := value },
  fun value files => { files with unused := value },
  fun value files => { files with maximum := value }]

def usedSystemFiledescriptorsSysdep (fileNr : Option Bytes) (files : SystemFiledescriptors) :
    Bool × SystemFiledescriptors :=
  match fileNr with
  | none => (false, files)
  | some text =>
      match (fileLines text).head? with
      | none => (false, files)
      | some line =>
          let values := sscanf fileNrFormat (cString line)
          (values.length == 3, assign fileNrArguments values files)

def initSystemInfo (unameSucceeds : Bool) : Bool × SystemInfo :=
  if unameSucceeds then
    (true, { cpu.user := some (-1), cpu.system := some (-1), cpu.iowait := some (-1) })
  else (false, {})

def memoryPercentages (state : SystemState) : SystemState :=
  let memorySize := state.globals.memorySize
  { state with
    si.memory.percent := if 0 < memorySize then 100 * state.si.memory.bytes / memorySize else 0
    si.swap.percent := if 0 < state.si.swapSize then 100 * state.si.swap.bytes / state.si.swapSize else 0 }

/-! The error exits of `update_system_info`, each falling through to the next. -/

def error4 (state : SystemState) : SystemState :=
  { state with si.filedescriptors := {} }

def error3 (state : SystemState) : SystemState :=
  error4 { state with si.cpu.user := some 0, si.cpu.system := some 0, si.cpu.iowait := some 0 }

def error2 (state : SystemState) : SystemState :=
  error3 { state with si.memory := {}, si.swap := {} }

def error1 (state : SystemState) : SystemState :=
  error2 { state with si.loadavg := (0, 0, 0) }

def updateSystemInfo (state : SystemState) (files : SystemFiles) : Bool × SystemState :=
  match getloadavgSysdep files.loadavg with
  | none => (false, error1 state)
  | some loadavg =>
      match usedSystemMemorySysdep files.meminfo files.arcstats { state with si.loadavg := loadavg } with
      | (false, state) => (false, error2 state)
      | (true, state) =>
          let state := memoryPercentages state
          match usedSystemCpuSysdep files.stat files.stack state.si.cpu with
          | (false, cpu) => (false, error3 { state with si.cpu := cpu })
          | (true, cpu) =>
              let state := { state with si.cpu := cpu }
              match usedSystemFiledescriptorsSysdep files.fileNr state.si.filedescriptors with
              | (false, filedescriptors) =>
                  (false, error4 { state with si.filedescriptors := filedescriptors })
              | (true, filedescriptors) =>
                  (true, { state with si.filedescriptors := filedescriptors })

end SimpleProcessMonitor
