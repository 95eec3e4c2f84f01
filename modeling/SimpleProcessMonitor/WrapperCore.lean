import SimpleProcessMonitor.Library.MaxQueue
import SimpleProcessMonitor.ProcessTreeInit

/-!
`ProcessTreeWrapper`: the selection of the top processes out of the tree, and the tree
over a sequence of updates.
-/

namespace SimpleProcessMonitor

open CString Selection

inductive TopInfoType
  | cpu
  | ram
  deriving DecidableEq

structure ProcessOrThreadInfo where
  pid : Int
  threadNum : Int
  cpuUsage : ℚ
  ramUsage : Nat
  cmdline : Bytes
  deriving DecidableEq

def processInfo (entry : ProcessTreeT) : ProcessOrThreadInfo where
  pid := entry.pid
  threadNum := entry.threads.self
  cpuUsage := entry.cpu.usage.self
  ramUsage := entry.memory.usage
  cmdline := entry.cmdline.getD (bytes "(null)")

section Template

variable {κ : Type} [LinearOrder κ] {key : Nat → κ} (maxPQ : MaxQueue key) (pTree : Entries)

def pushEntries (treeSize : Nat) : maxPQ.Carrier :=
  (List.range treeSize).foldl
    (fun queue i => if 0 < (entryAt pTree i).pid then maxPQ.push i queue else queue) maxPQ.empty

/-- The loop that takes from it; `none` if `top` or `pop` meets an empty queue. -/
def takeEntries : Nat → maxPQ.Carrier → List ProcessOrThreadInfo →
    Option (List ProcessOrThreadInfo)
  | 0, _, ret => some ret
  | rounds + 1, queue, ret =>
      match maxPQ.top queue with
      | none => none
      | some pProcess =>
          match maxPQ.pop queue with
          | none => none
          | some rest => takeEntries rounds rest (ret ++ [processInfo (entryAt pTree pProcess)])

def getTopProcessInfosWith (treeSize count : Int) : Option (List ProcessOrThreadInfo) :=
  takeEntries maxPQ pTree (min treeSize count).toNat (pushEntries maxPQ pTree treeSize.toNat) []

end Template

/-- An implementation of `std::priority_queue` for every comparison. -/
abbrev PriorityQueue := ∀ {κ : Type} [LinearOrder κ] (key : Nat → κ), MaxQueue key

def cpuKey (pTree : Entries) (index : Nat) : ℚ :=
  (entryAt pTree index).cpu.usage.self

def ramKey (pTree : Entries) (index : Nat) : Nat :=
  (entryAt pTree index).memory.usage

def getTopProcessInfos (queue : PriorityQueue) (type : TopInfoType) (count : Int)
    (ref : TreeRef) : Option (List ProcessOrThreadInfo) :=
  if ref.pTreeSize ≤ 0 then some []
  else
    let pTree := visibleEntries ref
    match type with
    | .cpu => getTopProcessInfosWith (queue (cpuKey pTree)) pTree ref.pTreeSize count
    | .ram => getTopProcessInfosWith (queue (ramKey pTree)) pTree ref.pTreeSize count

/-- `ProcessTreeWrapper::update`, with its assertion compiled out. -/
def update (sys : Sys) (pid : Int) (ref : TreeRef) (scan : Scan) : TreeRef :=
  (processTreeInit sys pid scan ref).1

/-- The tree of a wrapper after a sequence of updates, the first one its constructor's. -/
def updates (sys : Sys) (pid : Int) (scans : List Scan) : TreeRef :=
  Loop.run (update sys pid) {} scans

end SimpleProcessMonitor
