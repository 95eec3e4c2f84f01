import SimpleProcessMonitor.HeapInit
import SimpleProcessMonitor.Library.Decimal
import SimpleProcessMonitor.Library.Turns
import SimpleProcessMonitor.WrapperCore

/-!
`ProcessMonitor`: `collectTopInfo` as the steps of a thread on the shared heap, the threads
that `logTopCpu` starts, and the messages of both reports.
-/

namespace SimpleProcessMonitor

open Allocation CString Decimal Turns

/-- What one `collectTopInfo` meets outside: the scans of its updates, and how the name
buffer grows in them. The second scan is that of the update behind the sleep. -/
structure Readings where
  first : Scan
  firstGrowth : Nat → Nat
  second : Scan
  secondGrowth : Nat → Nat

inductive WorkerStage
  | construct
  | update
  | collect
  | destruct
  | assign
  | done
  deriving DecidableEq

/-- A thread in `collectTopInfo` with its `ProcessTreeWrapper`, and the vector that its
result is assigned to. `lost` is a trace: the blocks that its updates left without an owner. -/
structure Worker where
  pid : Int
  type : TopInfoType
  stage : WorkerStage := .construct
  pTree : Option HeapArray := none
  treeSize : Int := 0
  ret : Option (List ProcessOrThreadInfo) := some []
  slot : Option (List ProcessOrThreadInfo) := some []
  lost : Multiset Nat := 0

def Worker.ref (worker : Worker) (ledger : Ledger) : HeapRef where
  ppTree := worker.pTree
  pTreeSize := worker.treeSize
  ledger := ledger

def Worker.store (worker : Worker) (ref : HeapRef) : Worker :=
  { worker with pTree := ref.ppTree, treeSize := ref.pTreeSize }

section Threads

variable (queue : PriorityQueue) (sys : Sys) (logCount : Int) (readings : Nat → Readings)

/-- `none` in `ret` is the access to an empty queue. -/
def workerStep (index : Nat) (ledger : Ledger) (worker : Worker) : Ledger × Worker :=
  let ref := worker.ref ledger
  match worker.stage with
  | .construct =>
      let scan := (readings index).first
      let growth := (readings index).firstGrowth
      let after := (processTreeInitHeap sys worker.pid scan growth ref).1
      (after.ledger, { worker.store after with
        stage := if worker.type = .cpu then .update else .collect
        lost := worker.lost + lostBlocks sys ref (.init worker.pid scan growth) })
  | .update =>
      let scan := (readings index).second
      let growth := (readings index).secondGrowth
      let after := (processTreeInitHeap sys worker.pid scan growth ref).1
      (after.ledger, { worker.store after with
        stage := .collect
        lost := worker.lost + lostBlocks sys ref (.init worker.pid scan growth) })
  | .collect =>
      (ledger, { worker with
        stage := .destruct
        ret := getTopProcessInfos queue worker.type logCount ref.values })
  | .destruct =>
      let after := deleteHeap ref
      (after.ledger, { worker.store after with stage := .assign })
  | .assign => (ledger, { worker with stage := .done, slot := worker.ret })
  | .done => (ledger, worker)

/-- The threads of `logTopCpu`, one for each of `pids`, until they are joined. -/
def runWorkers (ledger : Ledger) (type : TopInfoType) (pids : List Int) (schedule : List Nat) :
    Team Ledger Worker :=
  runTurns (workerStep queue sys logCount readings)
    ⟨ledger, pids.map fun pid => { pid := pid, type := type }⟩ schedule

end Threads

/-- Only for the CPU usage is there a second update. -/
def Readings.scans (readings : Readings) : TopInfoType → List Scan
  | .cpu => [readings.first, readings.second]
  | .ram => [readings.first]

/-- `collectTopInfo` on the trees without pointers. -/
def collectTopInfo (queue : PriorityQueue) (sys : Sys) (pid logCount : Int) (type : TopInfoType)
    (readings : Readings) : Option (List ProcessOrThreadInfo) :=
  getTopProcessInfos queue type logCount (updates sys pid (readings.scans type))

/-! The messages. -/

/-- The nearest integer, and of two that are equally near the even one. -/
def roundHalfEven (value : ℚ) : Int :=
  let below := value.floor
  let rest := value - below
  if rest < 1 / 2 then below
  else if 1 / 2 < rest then below + 1
  else if below % 2 = 0 then below
  else below + 1

/-- The conversion `%.1f`. -/
def fixed1 (value : ℚ) : Bytes :=
  let tenths := (roundHalfEven (|value| * 10)).toNat
  (if value < 0 then [45] else []) ++
    (decimal (tenths / 10) ++ 46 :: decimal (tenths % 10))

/-- The conversion of an `unsigned long long` to `double`, which keeps 53 bits. -/
def toDouble (value : Nat) : Nat :=
  let dropped := Nat.log2 value - 52
  (roundHalfEven (value / 2 ^ dropped)).toNat * 2 ^ dropped

/-- Dividing a `double` by a power of two is exact. -/
def mebibytes (size : Nat) : ℚ :=
  toDouble size / (1024 * 1024)

/-- What `formatAndLog` hands to the logger, from the whole formatted text. -/
def formatAndLog (text : Bytes) : Bytes :=
  if 2 ^ 31 ≤ text.length then bytes "formatAndLog: snprintf formatting error"
  else if 4096 ≤ text.length then text.take 4095 ++ bytes " [TRUNCATED]"
  else text

def separator : Bytes :=
  List.replicate 60 45 ++ [10]

def cpuText (info : ProcessOrThreadInfo) : Bytes :=
  signedDecimal info.pid ++ bytes "  " ++ fixed1 info.cpuUsage ++ bytes "%  " ++
    cString info.cmdline ++ bytes "\n"

def ramText (info : ProcessOrThreadInfo) : Bytes :=
  signedDecimal info.pid ++ bytes "  " ++ fixed1 (mebibytes info.ramUsage) ++
    bytes " MiB  " ++ cString info.cmdline ++ bytes "\n"

def cpuHeader (pid : Int) (count : Nat) : Bytes :=
  if pid = allProcesses then
    bytes "Top " ++ decimal count ++ bytes " of system processes' CPU usages\n"
  else
    bytes "Top " ++ decimal count ++ bytes " of process pid " ++ signedDecimal pid ++
      bytes "'s threads' CPU usages\n"

def ramHeader (pid : Int) (memorySize count : Nat) : Bytes :=
  if pid = allProcesses then
    bytes "Top " ++ decimal count ++ bytes " processes' RAM usages (total " ++
      fixed1 (mebibytes memorySize) ++ bytes " MiB)\n"
  else
    bytes "Process pid " ++ signedDecimal pid ++ bytes "'s RAM usage (total " ++
      fixed1 (mebibytes memorySize) ++ bytes " MiB)\n"

/-- The messages of `logTopCpu` behind the joins. -/
def logTopCpu (pid : Int) (topProcessInfos : List ProcessOrThreadInfo)
    (topProcessThreadInfos : List (List ProcessOrThreadInfo)) : List Bytes :=
  [formatAndLog (cpuHeader pid topProcessInfos.length), separator] ++
    (topProcessInfos.zipIdx.flatMap fun process =>
      [formatAndLog (cpuText process.1), separator] ++
        if pid = allProcesses then
          (topProcessThreadInfos.getD process.2 []).map (fun thread => formatAndLog (cpuText thread)) ++
            [separator]
        else []) ++
    [bytes "\n"]

/-- Of a single process only the first thread is printed. -/
def logTopRam (pid : Int) (memorySize : Nat) (topProcessInfos : List ProcessOrThreadInfo) :
    List Bytes :=
  [formatAndLog (ramHeader pid memorySize topProcessInfos.length), separator] ++
    ((if pid = allProcesses then topProcessInfos else topProcessInfos.take 1).flatMap fun process =>
      [formatAndLog (ramText process), separator]) ++
    [bytes "\n"]

end SimpleProcessMonitor
