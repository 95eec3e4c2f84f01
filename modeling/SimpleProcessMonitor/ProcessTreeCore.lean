import SimpleProcessMonitor.Library.Allocation
import SimpleProcessMonitor.Library.Loop
import SimpleProcessMonitor.ProcfsCore

/-!
`ProcessTree.c`: the array of entries, the loop that links them into a tree, the
recursive fill, and `ProcessTree_init` and `ProcessTree_delete` on the caller's pointer
and size. The array is modelled by the entries below `*pTreeSize`.
-/

namespace SimpleProcessMonitor

open Allocation CString

structure CpuUsage where
  self : ℚ := 0
  children : ℚ := 0
  deriving DecidableEq

structure Cpu where
  usage : CpuUsage := {}
  time : ℚ := 0
  deriving DecidableEq

structure Threads where
  self : Int := 0
  children : Int := 0
  deriving DecidableEq

structure Children where
  count : Nat := 0
  total : Nat := 0
  list : List Nat := []
  deriving DecidableEq

structure Memory where
  usage : Nat := 0
  usageTotal : Nat := 0
  deriving DecidableEq

structure IoStatistics where
  time : Nat := 0
  transfer : Transfer := {}
  deriving DecidableEq

structure Filedescriptors where
  usage : Int := 0
  usageTotal : Int := 0
  limit : Limit := {}
  deriving DecidableEq

/-- `ProcessTree_T`. The defaults are the zeroed entry that `CALLOC` and `memset` leave. -/
structure ProcessTreeT where
  visited : Bool := false
  zombie : Bool := false
  pid : Int := 0
  ppid : Int := 0
  parent : Int := 0
  cred : Cred := {}
  cpu : Cpu := {}
  threads : Threads := {}
  children : Children := {}
  memory : Memory := {}
  read : IoStatistics := {}
  write : IoStatistics := {}
  uptime : Int := 0
  cmdline : Option Bytes := none
  secattr : Option Bytes := none
  filedescriptors : Filedescriptors := {}
  time : ℚ := 0
  deriving DecidableEq

def ProcessRecord.entry (record : ProcessRecord) : ProcessTreeT where
  zombie := record.zombie
  pid := record.pid
  ppid := record.ppid
  cred := record.cred
  cpu := { time := record.cpuTime }
  threads := { self := record.threadsSelf }
  memory := { usage := record.memoryUsage }
  read := ⟨record.readTime, record.read⟩
  write := ⟨record.writeTime, record.write⟩
  uptime := record.uptime
  cmdline := record.cmdline
  secattr := record.secattr
  filedescriptors := { usage := record.filedescriptorsUsage, limit := record.filedescriptorsLimit }

abbrev Entries := List ProcessTreeT

def entryAt (pt : Entries) (index : Nat) : ProcessTreeT :=
  pt.getD index {}

def findProcess (pid : Int) (pt : Entries) (size : Int) : Int :=
  match (pt.take size.toNat).findIdx? (fun entry => entry.pid == pid) with
  | some index => index
  | none => -1

/-! The build loop of `ProcessTree_init`. -/

/-- `*ppTree`, its size being the number of entries, with the local `root`. -/
structure BuildState where
  ledger : Ledger
  block : Nat
  pt : Entries
  root : Int

structure BuildInput where
  info : FixedSystemInfo
  pid : Int
  oldptree : Option Entries
  oldptreesize : Int
  timeDelta : ℚ

def usageSelf (input : BuildInput) (entry : ProcessTreeT) : ℚ :=
  match input.oldptree with
  | none => -1
  | some oldptree =>
      let oldentry := findProcess entry.pid oldptree input.oldptreesize
      if oldentry = -1 then -1
      else
        let old := entryAt oldptree oldentry.toNat
        if 0 < input.info.cpuCount ∧ 0 < input.timeDelta ∧ 0 ≤ old.cpu.time ∧
            old.cpu.time ≤ entry.cpu.time then
          let self := 100 * (entry.cpu.time - old.cpu.time) / input.timeDelta
          if input.pid = allProcesses then self else if self < 100 then self else 100
        else -1

/-- `ppid == -1` is the main process of some systems. -/
def selfParented (entry : ProcessTreeT) : Prop :=
  entry.pid = entry.ppid ∨ entry.ppid = -1

instance (entry : ProcessTreeT) : Decidable (selfParented entry) :=
  inferInstanceAs (Decidable (_ ∨ _))

def setUsageSelf (value : ℚ) (entry : ProcessTreeT) : ProcessTreeT :=
  { entry with cpu.usage.self := value }

def setParent (parent : Int) (entry : ProcessTreeT) : ProcessTreeT :=
  { entry with parent := parent }

def addChild (child : Nat) (entry : ProcessTreeT) : ProcessTreeT :=
  { entry with
    children.list := entry.children.list.take entry.children.count ++ [child]
    children.count := entry.children.count + 1 }

def virtualEntry (pid : Int) : ProcessTreeT :=
  { pid := pid, ppid := pid }

def addVirtual (ppid : Int) (state : BuildState) : BuildState :=
  let moved := state.ledger.resize state.block
  { ledger := moved.2, block := moved.1, pt := state.pt ++ [virtualEntry ppid], root := ppid }

def connect (index : Nat) (parent : Int) (state : BuildState) : BuildState :=
  { state with
    pt := (state.pt.modify index (setParent parent)).modify parent.toNat (addChild index) }

def linkProcess (pid : Int) (index : Nat) (state : BuildState) : BuildState :=
  let entry := entryAt state.pt index
  if selfParented entry then
    { state with root := index, pt := state.pt.modify index (setParent index) }
  else if pid = allProcesses then
    let parent := findProcess entry.ppid state.pt state.pt.length
    if parent = -1 then connect index state.pt.length (addVirtual entry.ppid state)
    else connect index parent state
  else state

def buildStep (input : BuildInput) (index : Nat) (state : BuildState) : BuildState :=
  let self := usageSelf input (entryAt state.pt index)
  linkProcess input.pid index { state with pt := state.pt.modify index (setUsageSelf self) }

/-- The bound `*pTreeSize` is read again in every round; `none` only if the fuel ends first. -/
def buildLoop (input : BuildInput) : Nat → Nat → BuildState → Option BuildState :=
  Loop.forBelow (fun state => state.pt.length) (buildStep input)

/-! `_fillProcessTree`. -/

/-- `processed` is a trace: the indices whose body ran, latest first. -/
structure FillState where
  pt : Entries
  processed : List Nat := []

def startFill (entry : ProcessTreeT) : ProcessTreeT :=
  { entry with
    visited := true
    children.total := entry.children.count
    threads.children := 0
    cpu.usage.children := 0
    memory.usageTotal := entry.memory.usage
    filedescriptors.usageTotal := entry.filedescriptors.usage }

def addTotals (child : ProcessTreeT) (parent : ProcessTreeT) : ProcessTreeT :=
  { parent with
    children.total := parent.children.total + child.children.total
    threads.children := parent.threads.children +
      ((if child.threads.self > 1 then child.threads.self else 1) +
        (if child.threads.children > 0 then child.threads.children else 0))
    cpu.usage.children := parent.cpu.usage.children +
      (if child.cpu.usage.self ≥ 0 then child.cpu.usage.self else 0) +
      (if child.cpu.usage.children ≥ 0 then child.cpu.usage.children else 0)
    memory.usageTotal := parent.memory.usageTotal + child.memory.usageTotal
    filedescriptors.usageTotal :=
      parent.filedescriptors.usageTotal + child.filedescriptors.usageTotal }

def FillState.start (index : Nat) (state : FillState) : FillState where
  pt := state.pt.modify index startFill
  processed := index :: state.processed

def FillState.finish (index : Nat) (state : FillState) : FillState :=
  let entry := entryAt state.pt index
  if entry.parent ≠ -1 ∧ entry.parent ≠ index then
    { state with pt := state.pt.modify entry.parent.toNat (addTotals entry) }
  else state

def fillProcessTree : Nat → Nat → FillState → Option FillState
  | 0, _, _ => none
  | fuel + 1, index, state =>
      if (entryAt state.pt index).visited then some state
      else
        let started := state.start index
        let filled := (List.range (entryAt started.pt index).children.count).foldlM
          (fun state i =>
            fillProcessTree fuel ((entryAt state.pt index).children.list.getD i 0) state) started
        filled.map (FillState.finish index)

end SimpleProcessMonitor
