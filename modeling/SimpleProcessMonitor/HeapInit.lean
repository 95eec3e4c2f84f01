import SimpleProcessMonitor.HeapCore

/-!
The build loop on the heap makes the rounds of the loop without pointers, so it ends too;
`ProcessTree_init` on the heap, and its calls in a row.
-/

namespace SimpleProcessMonitor

open Allocation

/-- The pointer-free state; the names of the arrays are those of the heap. -/
def HeapBuild.values (state : HeapBuild) : BuildState where
  ledger := state.ledger
  block := state.block
  pt := cellEntries state.cells
  root := state.root

structure SameBuild (state : HeapBuild) (image : BuildState) : Prop where
  pt : cellEntries state.cells = image.pt
  root : state.root = image.root

theorem cellEntries_modify {change : Cell → Cell} (entryChange : ProcessTreeT → ProcessTreeT)
    (same : ∀ cell, (change cell).entry = entryChange cell.entry) (cells : Cells) (index : Nat) :
    cellEntries (cells.modify index change) = (cellEntries cells).modify index entryChange := by
  apply List.ext_getElem?
  intro position
  simp only [cellEntries, List.getElem?_map, List.getElem?_modify]
  cases cells[position]? with
  | none => rfl
  | some cell =>
      simp only [Option.map_eq_map, Option.map_some, Option.some.injEq]
      split
      · exact same cell
      · rfl

theorem cellEntries_update (change : ProcessTreeT → ProcessTreeT) (cells : Cells) (index : Nat) :
    cellEntries (cells.modify index (Cell.update change)) =
      (cellEntries cells).modify index change :=
  cellEntries_modify change (fun _ => rfl) cells index

theorem cellAt_entry (cells : Cells) (index : Nat) :
    (cellAt cells index).entry = entryAt (cellEntries cells) index := by
  simp only [cellAt, entryAt, cellEntries, List.getD_eq_getElem?_getD, List.getElem?_map]
  cases cells[index]? <;> rfl

theorem cellEntries_length (cells : Cells) : (cellEntries cells).length = cells.length :=
  List.length_map _

section Simulation

variable {state : HeapBuild} {image : BuildState} (same : SameBuild state image)

include same

theorem SameBuild.length : state.cells.length = image.pt.length := by
  rw [← same.pt, cellEntries_length]

theorem SameBuild.connect (index : Nat) (parent : Int) :
    SameBuild (connectHeap index parent state) (connect index parent image) := by
  refine ⟨?_, same.root⟩
  simp only [connectHeap, SimpleProcessMonitor.connect]
  rw [cellEntries_modify (addChild index) (fun _ => rfl), cellEntries_update, same.pt]

theorem SameBuild.addVirtual (ppid : Int) :
    SameBuild (addVirtualHeap ppid state) (addVirtual ppid image) := by
  refine ⟨?_, rfl⟩
  simp only [addVirtualHeap, SimpleProcessMonitor.addVirtual, cellEntries, List.map_append]
  rw [← same.pt]
  rfl

theorem SameBuild.link (pid : Int) (index : Nat) :
    SameBuild (linkHeap pid index state) (linkProcess pid index image) := by
  have lengths := same.length
  simp only [linkHeap, linkProcess, cellAt_entry, same.pt, lengths]
  split
  · exact ⟨by rw [cellEntries_update, same.pt], rfl⟩
  · split
    · split
      · exact (same.addVirtual _).connect _ _
      · exact same.connect _ _
    · exact same

theorem SameBuild.step (input : BuildInput) (index : Nat) :
    SameBuild (buildStepHeap input index state) (buildStep input index image) := by
  simp only [buildStepHeap, buildStep, cellAt_entry, same.pt]
  apply SameBuild.link
  exact ⟨by rw [cellEntries_update, same.pt], same.root⟩

end Simulation

theorem sameBuild_values (state : HeapBuild) : SameBuild state state.values :=
  ⟨rfl, rfl⟩

theorem buildLoopHeap_simulates (input : BuildInput) (fuel : Nat) {state : HeapBuild}
    {image : BuildState} (same : SameBuild state image) :
    Option.Rel SameBuild (buildLoopHeap input fuel 0 state) (buildLoop input fuel 0 image) :=
  Loop.forBelow_simulates SameBuild (fun _ _ same => same.length)
    (fun index _ _ _ same => same.step input index) fuel 0 same

theorem buildLoopHeap_isSome (input : BuildInput) (state : HeapBuild) :
    (buildLoopHeap input (2 * state.cells.length + 1) 0 state).isSome = true := by
  have plain := buildLoop_isSome input state.values
  have lengths : state.values.pt.length = state.cells.length := cellEntries_length state.cells
  rw [lengths] at plain
  have related := buildLoopHeap_simulates input (2 * state.cells.length + 1) (sameBuild_values state)
  generalize buildLoop input (2 * state.cells.length + 1) 0 state.values = other at plain related
  generalize buildLoopHeap input (2 * state.cells.length + 1) 0 state = built at related ⊢
  cases related with
  | none => cases plain
  | some => rfl

def buildTreeHeap (input : BuildInput) (state : HeapBuild) : HeapBuild :=
  (buildLoopHeap input (2 * state.cells.length + 1) 0 state).get (buildLoopHeap_isSome input state)

/-! `ProcessTree_init`. -/

/-- The fill writes totals into the entries and no pointer. -/
def fillHeap (cells : Cells) (root : Nat) : Cells :=
  List.zipWith (fun cell entry => cell.update fun _ => entry) cells
    (fillTree (cellEntries cells) root).pt

def freePartsHeap (ref : HeapRef) : Ledger :=
  match ref.ppTree with
  | none => ref.ledger
  | some array => array.cells.foldl freeCell ref.ledger

def freeOldHeap (ref : HeapRef) (ledger : Ledger) : Ledger :=
  match ref.ppTree with
  | none => ledger
  | some array => ledger.release array.block

def failScanHeap (ref scanned : HeapRef) : HeapRef :=
  if ref.ppTree.isSome then deleteHeap scanned else scanned

def snapshotHeap (info : FixedSystemInfo) (pid : Int) (time : ℚ) (ref : HeapRef)
    (array : HeapArray) (ledger : Ledger) : HeapBuild :=
  buildTreeHeap (buildInput info pid time ref.values) {
    ledger := ledger
    block := array.block
    cells := array.cells.modify 0 (Cell.update (setTime time))
    root := -1
  }

def linkedHeap (ref : HeapRef) (built : HeapBuild) : HeapRef where
  ppTree := some ⟨built.block, built.cells⟩
  pTreeSize := built.cells.length
  ledger := freeOldHeap ref built.ledger

def initCells (info : FixedSystemInfo) (pid : Int) (time : ℚ) (ref : HeapRef)
    (array : HeapArray) (ledger : Ledger) : HeapRef × Int :=
  if array.cells.length = 0 then
    (failScanHeap ref { ppTree := some array, pTreeSize := 0, ledger := ledger }, -1)
  else
    let built := snapshotHeap info pid time ref array ledger
    let linked := linkedHeap ref built
    if pid = allProcesses then
      if built.root = -1 then (deleteHeap linked, -1)
      else
        ({ linked with ppTree := some ⟨built.block, fillHeap built.cells built.root.toNat⟩ },
          linked.pTreeSize)
    else (linked, linked.pTreeSize)

def processTreeInitHeap (sys : Sys) (pid : Int) (scan : Scan) (growth : Nat → Nat)
    (ref : HeapRef) : HeapRef × Int :=
  match initprocesstreeHeap sys scan pid growth (freePartsHeap ref) with
  | none =>
      (failScanHeap ref { ppTree := none, pTreeSize := 0, ledger := freePartsHeap ref }, -1)
  | some (array, ledger) =>
      initCells sys.info pid (getNowSingleCoreCpuTime sys.info scan.procStat scan.stack) ref
        array ledger

inductive HeapCall
  | init (pid : Int) (scan : Scan) (growth : Nat → Nat)
  | delete

def heapStep (sys : Sys) (ref : HeapRef) : HeapCall → HeapRef
  | .init pid scan growth => (processTreeInitHeap sys pid scan growth ref).1
  | .delete => deleteHeap ref

def afterHeapCalls (sys : Sys) (calls : List HeapCall) : HeapRef :=
  Loop.run (heapStep sys) {} calls

/-- The block of the array alone, whose parts `ProcessTree_init` frees before the scan. -/
def HeapRef.arrayBlock (ref : HeapRef) : Multiset Nat :=
  held (ref.ppTree.map (·.block))

def scanFindsNothing (sys : Sys) (pid : Int) (scan : Scan) : Prop :=
  (initprocesstreeSysdep sys scan pid).getD [] = []

instance (sys : Sys) (pid : Int) (scan : Scan) : Decidable (scanFindsNothing sys pid scan) :=
  inferInstanceAs (Decidable (_ = _))

/-- What the call leaves live without an owner: the array of a tree whose update failed to glob
or stored no process. -/
def lostBlocks (sys : Sys) (ref : HeapRef) : HeapCall → Multiset Nat
  | .init pid scan _ => if scanFindsNothing sys pid scan then ref.arrayBlock else 0
  | .delete => 0

end SimpleProcessMonitor
