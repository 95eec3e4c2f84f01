import SimpleProcessMonitor.Library.Ownership
import SimpleProcessMonitor.ProcessTreeInit

/-!
`ProcessTree.c` with every heap block it allocates: the arrays, the two strings that the
scan duplicates for an entry, the children list that the build loop grows, and the string
buffer of the scan. The entries are those of the model without pointers.
-/

namespace SimpleProcessMonitor

open Allocation

/-- An entry with the blocks that its pointers refer to. -/
structure Cell where
  entry : ProcessTreeT
  cmdline : Option Nat := none
  list : Option Nat := none
  secattr : Option Nat := none

def Cell.update (change : ProcessTreeT → ProcessTreeT) (cell : Cell) : Cell :=
  { cell with entry := change cell.entry }

def Cell.blocks (cell : Cell) : Multiset Nat :=
  held cell.cmdline + (held cell.list + held cell.secattr)

abbrev Cells := List Cell

def cellAt (cells : Cells) (index : Nat) : Cell :=
  cells.getD index { entry := {} }

def cellEntries (cells : Cells) : Entries :=
  cells.map Cell.entry

structure HeapArray where
  block : Nat
  cells : Cells

structure HeapRef where
  ppTree : Option HeapArray := none
  pTreeSize : Int := 0
  ledger : Ledger := {}

def HeapArray.blocks (array : HeapArray) : Multiset Nat :=
  array.block ::ₘ (array.cells.map Cell.blocks).sum

def HeapRef.blocks (ref : HeapRef) : Multiset Nat :=
  match ref.ppTree with
  | none => 0
  | some array => array.blocks

/-- The same array without the pointers of its entries. -/
def HeapRef.values (ref : HeapRef) : TreeRef where
  ppTree := ref.ppTree.map fun array => ⟨array.block, cellEntries array.cells⟩
  pTreeSize := ref.pTreeSize
  ledger := ref.ledger

def freeCell (ledger : Ledger) (cell : Cell) : Ledger :=
  ((ledger.free cell.cmdline).free cell.list).free cell.secattr

def deleteHeap (ref : HeapRef) : HeapRef :=
  match ref.ppTree with
  | none => ref
  | some array =>
      { ppTree := none
        pTreeSize := 0
        ledger := (array.cells.foldl freeCell ref.ledger).release array.block }

/-! `_initprocesstree_sysdep`. -/

/-- `proc.name`: the structure and its buffer. -/
structure NameBlocks where
  object : Nat
  buffer : Nat

structure ScanHeap where
  ledger : Ledger
  name : NameBlocks
  cells : Cells

def growName (state : ScanHeap) : ScanHeap :=
  let moved := state.ledger.resize state.name.buffer
  { state with ledger := moved.2, name.buffer := moved.1 }

def storeCell (record : ProcessRecord) (state : ScanHeap) : ScanHeap :=
  let cmdline := state.ledger.alloc
  let secattr := cmdline.2.alloc
  { state with
    ledger := secattr.2
    cells := state.cells ++
      [{ entry := record.entry, cmdline := some cmdline.1, secattr := some secattr.1 }] }

/-- `growth index` is how often the appends of round `index` reallocate the buffer. -/
def scanHeap (sys : Sys) (starttime pid : Int) (growth : Nat → Nat) :
    Nat → List GlobEntry → ProcT → ScanHeap → ScanHeap
  | _, [], _, state => state
  | index, entry :: rest, proc, state =>
      let grown := growName^[growth index] state
      let scanned := scanEntry sys starttime pid entry proc
      scanHeap sys starttime pid growth (index + 1) rest scanned.2
        (scanned.1.elim grown fun record => storeCell record grown)

def initprocesstreeHeap (sys : Sys) (scan : Scan) (pid : Int) (growth : Nat → Nat)
    (ledger : Ledger) : Option (HeapArray × Ledger) :=
  scan.glob.map fun entries =>
    let array := ledger.alloc
    let object := array.2.alloc
    let buffer := object.2.alloc
    let scanned := scanHeap sys scan.starttime pid growth 0 entries {}
      { ledger := buffer.2, name := ⟨object.1, buffer.1⟩, cells := [] }
    (⟨array.1, scanned.cells⟩,
      (scanned.ledger.release scanned.name.buffer).release scanned.name.object)

/-! The build loop. -/

structure HeapBuild where
  ledger : Ledger
  block : Nat
  cells : Cells
  root : Int

def HeapBuild.blocks (state : HeapBuild) : Multiset Nat :=
  state.block ::ₘ (state.cells.map Cell.blocks).sum

def addVirtualHeap (ppid : Int) (state : HeapBuild) : HeapBuild :=
  let moved := state.ledger.resize state.block
  { ledger := moved.2
    block := moved.1
    cells := state.cells ++ [{ entry := virtualEntry ppid }]
    root := ppid }

def connectHeap (index : Nat) (parent : Int) (state : HeapBuild) : HeapBuild :=
  let marked := state.cells.modify index (Cell.update (setParent parent))
  let moved := state.ledger.realloc (cellAt marked parent.toNat).list
  { state with
    ledger := moved.2
    cells := marked.modify parent.toNat fun cell =>
      { cell.update (addChild index) with list := some moved.1 } }

def linkHeap (pid : Int) (index : Nat) (state : HeapBuild) : HeapBuild :=
  let entry := (cellAt state.cells index).entry
  if selfParented entry then
    { state with
      root := index
      cells := state.cells.modify index (Cell.update (setParent index)) }
  else if pid = allProcesses then
    let parent := findProcess entry.ppid (cellEntries state.cells) state.cells.length
    if parent = -1 then connectHeap index state.cells.length (addVirtualHeap entry.ppid state)
    else connectHeap index parent state
  else state

def buildStepHeap (input : BuildInput) (index : Nat) (state : HeapBuild) : HeapBuild :=
  let self := usageSelf input (cellAt state.cells index).entry
  linkHeap input.pid index
    { state with cells := state.cells.modify index (Cell.update (setUsageSelf self)) }

def buildLoopHeap (input : BuildInput) : Nat → Nat → HeapBuild → Option HeapBuild :=
  Loop.forBelow (fun state => state.cells.length) (buildStepHeap input)

end SimpleProcessMonitor
