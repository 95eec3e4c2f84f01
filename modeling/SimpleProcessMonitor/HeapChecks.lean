import SimpleProcessMonitor.HeapInit
import SimpleProcessMonitor.LedgerChecks

/-!
Who owns which heap block over any run of `ProcessTree_init` and `ProcessTree_delete`, and
that the heap computes the trees of the model without pointers.
-/

namespace SimpleProcessMonitor

open Allocation

section Owned

variable {rest : Multiset Nat}

theorem freeCell_gives {ledger : Ledger} (cell : Cell) (owns : Owns ledger (cell.blocks + rest)) :
    Owns (freeCell ledger cell) rest := by
  have split : cell.blocks + rest =
      held cell.cmdline + (held cell.list + (held cell.secattr + rest)) := by
    simp only [Cell.blocks, add_assoc]
  exact ((owns.congr split).free.free).free

theorem deleteHeap_none {ref : HeapRef} : (deleteHeap ref).ppTree = none := by
  unfold deleteHeap
  cases tree : ref.ppTree with
  | none => exact tree
  | some array => rfl

theorem deleteHeap_gives {ref : HeapRef} (owns : Owns ref.ledger (ref.blocks + rest)) :
    Owns (deleteHeap ref).ledger rest := by
  unfold deleteHeap
  cases tree : ref.ppTree with
  | none =>
      have nothing : ref.blocks + rest = rest := by simp [HeapRef.blocks, tree]
      exact owns.congr nothing
  | some array =>
      have split : ref.blocks + rest =
          (array.cells.map Cell.blocks).sum + (array.block ::ₘ rest) := by
        simp only [HeapRef.blocks, tree, HeapArray.blocks]
        rw [Multiset.cons_add, Multiset.add_cons]
      exact ((owns.congr split).foldl freeCell_gives array.cells).release

theorem deleteHeap_blocks (ref : HeapRef) : (deleteHeap ref).blocks = 0 := by
  simp only [HeapRef.blocks, deleteHeap_none]

/-! The scan. -/

def ScanHeap.blocks (state : ScanHeap) : Multiset Nat :=
  state.name.buffer ::ₘ state.name.object ::ₘ (state.cells.map Cell.blocks).sum

theorem growName_owns {state : ScanHeap} (owns : Owns state.ledger (state.blocks + rest)) :
    Owns (growName state).ledger ((growName state).blocks + rest) := by
  have split : state.blocks + rest = state.name.buffer ::ₘ
      (state.name.object ::ₘ (state.cells.map Cell.blocks).sum + rest) := by
    rw [ScanHeap.blocks, Multiset.cons_add]
  refine (Owns.resize (owns.congr split)).congr ?_
  simp only [growName, ScanHeap.blocks, Multiset.cons_add]

theorem storeCell_owns (record : ProcessRecord) {state : ScanHeap}
    (owns : Owns state.ledger (state.blocks + rest)) :
    Owns (storeCell record state).ledger ((storeCell record state).blocks + rest) := by
  refine owns.alloc.alloc.congr ?_
  simp only [storeCell, ScanHeap.blocks, List.map_append, List.map_cons, List.map_nil,
    List.sum_append, List.sum_cons, List.sum_nil, Cell.blocks, held_none, held_some,
    ← Multiset.singleton_add]
  abel

theorem growName_repeat (count : Nat) {state : ScanHeap}
    (owns : Owns state.ledger (state.blocks + rest)) :
    Owns (growName^[count] state).ledger ((growName^[count] state).blocks + rest) := by
  induction count generalizing state with
  | zero => exact owns
  | succ count ih => exact ih (growName_owns owns)

theorem scanHeap_owns (sys : Sys) (starttime pid : Int) (growth : Nat → Nat) (index : Nat)
    (entries : List GlobEntry) (proc : ProcT) {state : ScanHeap}
    (owns : Owns state.ledger (state.blocks + rest)) :
    Owns (scanHeap sys starttime pid growth index entries proc state).ledger
      ((scanHeap sys starttime pid growth index entries proc state).blocks + rest) := by
  induction entries generalizing index proc state with
  | nil => exact owns
  | cons entry entries ih =>
      have grown := growName_repeat (growth index) owns
      simp only [scanHeap]
      cases (scanEntry sys starttime pid entry proc).1 with
      | none => exact ih (index + 1) _ grown
      | some record => exact ih (index + 1) _ (storeCell_owns record grown)

theorem initprocesstreeHeap_owns {sys : Sys} {scan : Scan} {pid : Int} {growth : Nat → Nat}
    {ledger after : Ledger} {array : HeapArray} (owns : Owns ledger rest)
    (scanned : initprocesstreeHeap sys scan pid growth ledger = some (array, after)) :
    Owns after (array.blocks + rest) := by
  obtain ⟨entries, -, result⟩ := Option.map_eq_some_iff.mp scanned
  obtain ⟨rfl, rfl⟩ := Prod.mk.inj result
  let start : ScanHeap := {
    ledger := ledger.alloc.2.alloc.2.alloc.2
    name := ⟨ledger.alloc.2.alloc.1, ledger.alloc.2.alloc.2.alloc.1⟩
    cells := [] }
  have started : Owns start.ledger (start.blocks + (ledger.alloc.1 ::ₘ rest)) := by
    refine owns.alloc.alloc.alloc.congr ?_
    simp only [start, ScanHeap.blocks, List.map_nil, List.sum_nil, ← Multiset.singleton_add]
    abel
  have read := scanHeap_owns sys scan.starttime pid growth 0 entries {} started
  generalize scanHeap sys scan.starttime pid growth 0 entries {} start = final at read
  have split : final.blocks + (ledger.alloc.1 ::ₘ rest) =
      final.name.buffer ::ₘ final.name.object ::ₘ
        (HeapArray.blocks ⟨ledger.alloc.1, final.cells⟩ + rest) := by
    simp only [ScanHeap.blocks, HeapArray.blocks, ← Multiset.singleton_add]
    abel
  exact (read.congr split).release.release

/-! The build loop. -/

theorem update_blocks (change : ProcessTreeT → ProcessTreeT) (cells : Cells) (index : Nat) :
    ((cells.modify index (Cell.update change)).map Cell.blocks).sum = (cells.map Cell.blocks).sum :=
  sum_modify_same (show ∀ cell, (Cell.update change cell).blocks = cell.blocks from fun _ => rfl)
    cells index

theorem addVirtualHeap_owns (ppid : Int) {state : HeapBuild}
    (owns : Owns state.ledger (state.blocks + rest)) :
    Owns (addVirtualHeap ppid state).ledger ((addVirtualHeap ppid state).blocks + rest) := by
  rw [HeapBuild.blocks, Multiset.cons_add] at owns
  refine (Owns.resize owns).congr ?_
  rw [HeapBuild.blocks, Multiset.cons_add]
  simp [addVirtualHeap, Cell.blocks]

theorem connectHeap_owns (index : Nat) {parent : Nat} {state : HeapBuild}
    (inside : parent < state.cells.length) (owns : Owns state.ledger (state.blocks + rest)) :
    Owns (connectHeap index parent state).ledger
      ((connectHeap index parent state).blocks + rest) := by
  let marked := state.cells.modify index (Cell.update (setParent parent))
  have bound : parent < marked.length := by simpa [marked] using inside
  have found : marked[parent]? = some (cellAt marked parent) := by
    simp [cellAt, List.getElem?_eq_getElem bound]
  obtain ⟨others, sum, changed⟩ := exists_sum_modify Cell.blocks found
  have kept : (marked.map Cell.blocks).sum = (state.cells.map Cell.blocks).sum :=
    update_blocks _ _ _
  have split : state.blocks + rest = held (cellAt marked parent).list +
      (state.block ::ₘ (held (cellAt marked parent).cmdline +
        held (cellAt marked parent).secattr + others + rest)) := by
    simp only [HeapBuild.blocks, ← kept, sum, Cell.blocks, ← Multiset.singleton_add]
    abel
  refine (owns.congr split).realloc.congr ?_
  simp only [connectHeap, HeapBuild.blocks, Int.toNat_natCast, ← Multiset.singleton_add]
  rw [changed]
  simp only [Cell.blocks, Cell.update, held_some, marked]
  abel

theorem linkHeap_owns (pid : Int) (index : Nat) {state : HeapBuild}
    (owns : Owns state.ledger (state.blocks + rest)) :
    Owns (linkHeap pid index state).ledger ((linkHeap pid index state).blocks + rest) := by
  simp only [linkHeap]
  split
  · refine owns.congr ?_
    simp only [HeapBuild.blocks, update_blocks]
  · split
    · have lookup := findProcess_cases (cellAt state.cells index).entry.ppid (cellEntries state.cells)
      rw [cellEntries_length] at lookup
      rcases lookup with ⟨missing, -⟩ | ⟨parent, inside, found, -⟩
      · rw [if_pos missing]
        apply connectHeap_owns
        · simp [addVirtualHeap]
        · exact addVirtualHeap_owns _ owns
      · rw [if_neg (by omega), found]
        exact connectHeap_owns index inside owns
    · exact owns

theorem buildStepHeap_owns (input : BuildInput) (index : Nat) {state : HeapBuild}
    (owns : Owns state.ledger (state.blocks + rest)) :
    Owns (buildStepHeap input index state).ledger
      ((buildStepHeap input index state).blocks + rest) := by
  apply linkHeap_owns
  refine owns.congr ?_
  simp only [HeapBuild.blocks, update_blocks]

theorem buildStepHeap_length (input : BuildInput) (index : Nat) (state : HeapBuild) :
    state.cells.length ≤ (buildStepHeap input index state).cells.length := by
  have grown := buildStep_length input index state.values
  have before := (sameBuild_values state).length
  have after := ((sameBuild_values state).step input index).length
  omega

theorem buildTreeHeap_owns (input : BuildInput) {state : HeapBuild}
    (owns : Owns state.ledger (state.blocks + rest)) :
    Owns (buildTreeHeap input state).ledger ((buildTreeHeap input state).blocks + rest) :=
  Loop.forBelow_rule (fun _ (state : HeapBuild) => Owns state.ledger (state.blocks + rest))
    (fun state index => buildStepHeap_length input index state)
    (fun index _ _ owns => buildStepHeap_owns input index owns) owns (Nat.zero_le _)
    (Option.some_get (buildLoopHeap_isSome input state)).symm

/-! `ProcessTree_init`. -/

theorem freePartsHeap_owns {ref : HeapRef} (owns : Owns ref.ledger (ref.blocks + rest)) :
    Owns (freePartsHeap ref) (ref.arrayBlock + rest) := by
  unfold freePartsHeap
  cases tree : ref.ppTree with
  | none =>
      refine owns.congr ?_
      simp [HeapRef.blocks, HeapRef.arrayBlock, tree]
  | some array =>
      have split : ref.blocks + rest =
          (array.cells.map Cell.blocks).sum + (ref.arrayBlock + rest) := by
        simp only [HeapRef.blocks, tree, HeapArray.blocks, HeapRef.arrayBlock, Option.map_some,
          held_some, ← Multiset.singleton_add]
        abel
      exact (owns.congr split).foldl freeCell_gives array.cells

theorem freeOldHeap_owns {ref : HeapRef} {ledger : Ledger} {blocks : Multiset Nat}
    (owns : Owns ledger (blocks + (ref.arrayBlock + rest))) :
    Owns (freeOldHeap ref ledger) (blocks + rest) := by
  have split : blocks + (ref.arrayBlock + rest) =
      held (ref.ppTree.map (·.block)) + (blocks + rest) := by
    rw [HeapRef.arrayBlock]
    abel
  unfold freeOldHeap
  cases tree : ref.ppTree with
  | none =>
      refine owns.congr ?_
      simp [HeapRef.arrayBlock, tree]
  | some array =>
      rw [tree] at split
      exact (owns.congr split).free

theorem fillTree_length (pt : Entries) (root : Nat) : (fillTree pt root).pt.length = pt.length := by
  simpa using congrArg List.length (fillTree_fixed pt root)

theorem fillHeap_entries (cells : Cells) (root : Nat) :
    cellEntries (fillHeap cells root) = (fillTree (cellEntries cells) root).pt := by
  have lengths := fillTree_length (cellEntries cells) root
  rw [cellEntries_length] at lengths
  rw [cellEntries, fillHeap, List.map_zipWith]
  apply List.ext_getElem?
  intro index
  simp only [List.getElem?_zipWith]
  by_cases inside : index < cells.length
  · simp [inside, lengths, Cell.update]
  · simp [inside, lengths]

theorem fillHeap_blocks (cells : Cells) (root : Nat) :
    (fillHeap cells root).map Cell.blocks = cells.map Cell.blocks := by
  have lengths := fillTree_length (cellEntries cells) root
  rw [cellEntries_length] at lengths
  rw [fillHeap, List.map_zipWith]
  apply List.ext_getElem?
  intro index
  simp only [List.getElem?_zipWith, List.getElem?_map]
  by_cases inside : index < cells.length
  · simp only [List.getElem?_eq_getElem inside,
      List.getElem?_eq_getElem (show index < (fillTree (cellEntries cells) root).pt.length by omega)]
    rfl
  · simp [inside]

end Owned

/-! The values of the heap are those of the model without pointers. -/

structure SameTree (heap : HeapRef) (ref : TreeRef) : Prop where
  entries : heap.ppTree.map (fun array => cellEntries array.cells) = ref.ppTree.map (·.entries)
  size : heap.pTreeSize = ref.pTreeSize

theorem visibleEntries_map (ref : TreeRef) :
    visibleEntries ref = (ref.ppTree.map (·.entries)).getD [] := by
  unfold visibleEntries
  cases ref.ppTree <;> rfl

theorem SameTree.visible {heap : HeapRef} {ref : TreeRef} (same : SameTree heap ref) :
    visibleEntries heap.values = visibleEntries ref := by
  rw [visibleEntries_map, visibleEntries_map, ← same.entries, HeapRef.values, Option.map_map]
  rfl

theorem scanHeap_entries (sys : Sys) (starttime pid : Int) (growth : Nat → Nat) (index : Nat)
    (entries : List GlobEntry) (proc : ProcT) (state : ScanHeap) :
    cellEntries (scanHeap sys starttime pid growth index entries proc state).cells =
      cellEntries state.cells ++
        (scanEntries sys starttime pid entries proc).map ProcessRecord.entry := by
  have grown (count : Nat) (state : ScanHeap) : (growName^[count] state).cells = state.cells := by
    induction count generalizing state with
    | zero => rfl
    | succ count ih => exact ih (growName state)
  induction entries generalizing index proc state with
  | nil => exact (List.append_nil _).symm
  | cons entry entries ih =>
      simp only [scanHeap, scanEntries, ih]
      cases (scanEntry sys starttime pid entry proc).1 with
      | none => simp [grown]
      | some record => simp [storeCell, cellEntries, grown]

theorem initprocesstreeHeap_records (sys : Sys) (scan : Scan) (pid : Int) (growth : Nat → Nat)
    (ledger : Ledger) :
    (initprocesstreeHeap sys scan pid growth ledger).map (fun scanned => cellEntries scanned.1.cells) =
      (initprocesstreeSysdep sys scan pid).map (List.map ProcessRecord.entry) := by
  unfold initprocesstreeHeap initprocesstreeSysdep
  cases scan.glob with
  | none => rfl
  | some entries =>
      simp only [Option.map_some, scanHeap_entries]
      rfl

theorem SameBuild.buildTree (input : BuildInput) {state : HeapBuild} {image : BuildState}
    (same : SameBuild state image) :
    SameBuild (buildTreeHeap input state) (SimpleProcessMonitor.buildTree input image) := by
  have related := buildLoopHeap_simulates input (2 * image.pt.length + 1) same
  have heapLoop : buildLoopHeap input (2 * image.pt.length + 1) 0 state =
      some (buildTreeHeap input state) := by
    rw [← same.length]
    exact (Option.some_get (buildLoopHeap_isSome input state)).symm
  have plainLoop : buildLoop input (2 * image.pt.length + 1) 0 image =
      some (SimpleProcessMonitor.buildTree input image) :=
    (Option.some_get (buildLoop_isSome input image)).symm
  rw [heapLoop, plainLoop] at related
  simpa using related

section Values

variable {heap : HeapRef} {ref : TreeRef} (same : SameTree heap ref)

include same

theorem SameTree.buildInput (info : FixedSystemInfo) (pid : Int) (time : ℚ) :
    buildInput info pid time heap.values = buildInput info pid time ref := by
  have listed : heap.values.ppTree.map (·.entries) = ref.ppTree.map (·.entries) := by
    rw [← same.entries, HeapRef.values, Option.map_map]
    rfl
  have parts (tree : TreeRef) : oldptree tree =
      (tree.ppTree.map (·.entries)).map (List.map freeParts) := by
    rw [oldptree, Option.map_map]
    rfl
  have old : oldptree heap.values = oldptree ref := by rw [parts, parts, listed]
  have size : heap.values.pTreeSize = ref.pTreeSize := same.size
  simp only [SimpleProcessMonitor.buildInput, timePrev, old, size]

theorem SameTree.snapshot (info : FixedSystemInfo) (pid : Int) (time : ℚ) {array : HeapArray}
    (ledger : Ledger) {records : List ProcessRecord}
    (stored : cellEntries array.cells = records.map ProcessRecord.entry) :
    SameBuild (snapshotHeap info pid time heap array ledger) (snapshot info pid time ref records) := by
  let first : HeapBuild := {
    ledger := ledger
    block := array.block
    cells := array.cells.modify 0 (Cell.update (setTime time))
    root := -1 }
  let second : BuildState := {
    ledger := ref.ledger.alloc.2
    block := ref.ledger.alloc.1
    pt := scannedEntries records time
    root := -1 }
  have start : SameBuild first second := by
    refine ⟨?_, rfl⟩
    simp only [first, second, cellEntries_update, stored]
    rfl
  rw [snapshotHeap, SimpleProcessMonitor.snapshot, same.buildInput]
  exact start.buildTree _

theorem SameTree.delete : SameTree (deleteHeap heap) (SimpleProcessMonitor.delete ref) := by
  have listed := same.entries
  cases heapTree : heap.ppTree with
  | none =>
      have none : ref.ppTree = none := by simpa [heapTree] using listed
      simpa [deleteHeap, SimpleProcessMonitor.delete, heapTree, none] using same
  | some array =>
      rw [heapTree] at listed
      obtain ⟨tree, treeEq, -⟩ := Option.map_eq_some_iff.mp listed.symm
      simp only [deleteHeap, SimpleProcessMonitor.delete, heapTree, treeEq]
      exact ⟨rfl, rfl⟩

theorem SameTree.failScan {scanned : HeapRef} {image : TreeRef}
    (scannedSame : SameTree scanned image) :
    SameTree (failScanHeap heap scanned) (SimpleProcessMonitor.failScan ref image) := by
  have present : heap.ppTree.isSome = ref.ppTree.isSome := by
    simpa using congrArg Option.isSome same.entries
  simp only [failScanHeap, SimpleProcessMonitor.failScan, present]
  split
  · exact scannedSame.delete
  · exact scannedSame

theorem SameTree.initCells (info : FixedSystemInfo) (pid : Int) (time : ℚ) {array : HeapArray}
    (ledger : Ledger) {records : List ProcessRecord}
    (stored : cellEntries array.cells = records.map ProcessRecord.entry) :
    SameTree (initCells info pid time heap array ledger).1 (initRecords info pid time ref records).1 ∧
      (initCells info pid time heap array ledger).2 = (initRecords info pid time ref records).2 := by
  have built := same.snapshot info pid time ledger stored
  have length : array.cells.length = records.length := by
    simpa [cellEntries] using congrArg List.length stored
  have linked : SameTree (linkedHeap heap (snapshotHeap info pid time heap array ledger))
      (linkedRef ref (SimpleProcessMonitor.snapshot info pid time ref records)) := by
    refine ⟨?_, ?_⟩
    · simp only [linkedHeap, linkedRef, Option.map_some, built.pt]
    · simp only [linkedHeap, linkedRef, built.length]
  simp only [SimpleProcessMonitor.initCells, initRecords, length, List.length_eq_zero_iff, built.root]
  by_cases none : records = []
  · rw [if_pos none, if_pos none]
    refine ⟨same.failScan ⟨?_, rfl⟩, rfl⟩
    simp only [Option.map_some, stored, none, List.map_nil]
  · rw [if_neg none, if_neg none]
    split
    · split
      · exact ⟨linked.delete, rfl⟩
      · refine ⟨⟨?_, linked.size⟩, linked.size⟩
        simp only [Option.map_some, fillHeap_entries, built.pt]
    · exact ⟨linked, linked.size⟩

theorem SameTree.init (sys : Sys) (pid : Int) (scan : Scan) (growth : Nat → Nat) :
    SameTree (processTreeInitHeap sys pid scan growth heap).1 (processTreeInit sys pid scan ref).1 ∧
      (processTreeInitHeap sys pid scan growth heap).2 = (processTreeInit sys pid scan ref).2 := by
  have read := initprocesstreeHeap_records sys scan pid growth (freePartsHeap heap)
  unfold processTreeInitHeap processTreeInit
  cases scanned : initprocesstreeHeap sys scan pid growth (freePartsHeap heap) with
  | none =>
      rw [scanned] at read
      have none : initprocesstreeSysdep sys scan pid = none := Option.map_eq_none_iff.mp read.symm
      simp only [none]
      exact ⟨same.failScan ⟨rfl, rfl⟩, trivial⟩
  | some result =>
      obtain ⟨array, ledger⟩ := result
      rw [scanned] at read
      obtain ⟨records, recordsEq, stored⟩ := Option.map_eq_some_iff.mp read.symm
      simp only [recordsEq]
      exact same.initCells sys.info pid _ ledger stored.symm

end Values

def HeapCall.call : HeapCall → TreeCall
  | .init pid scan _ => .init pid scan
  | .delete => .delete

theorem heapStep_same (sys : Sys) (heap : HeapRef) (ref : TreeRef) (call : HeapCall)
    (same : SameTree heap ref) : SameTree (heapStep sys heap call) (callStep sys ref call.call) := by
  cases call with
  | init pid scan growth => exact (same.init sys pid scan growth).1
  | delete => exact same.delete

theorem afterHeapCalls_same (sys : Sys) (calls : List HeapCall) :
    SameTree (afterHeapCalls sys calls) (afterCalls sys (calls.map HeapCall.call)) := by
  have start : SameTree {} {} := ⟨rfl, rfl⟩
  rw [afterCalls, Loop.run, List.foldl_map]
  exact Loop.run_simulates SameTree start (heapStep_same sys) calls

/-! The blocks that no one refers to any more. -/

def leaks (sys : Sys) : HeapRef → List HeapCall → Multiset Nat
  | _, [] => 0
  | ref, call :: calls => lostBlocks sys ref call + leaks sys (heapStep sys ref call) calls

section Accounts

variable {rest : Multiset Nat}

theorem failScanHeap_owns {ref scanned : HeapRef}
    (owns : Owns scanned.ledger (scanned.blocks + rest)) :
    Owns (failScanHeap ref scanned).ledger ((failScanHeap ref scanned).blocks + rest) := by
  unfold failScanHeap
  split
  · rw [deleteHeap_blocks, zero_add]
    exact deleteHeap_gives owns
  · exact owns

theorem snapshotHeap_owns (info : FixedSystemInfo) (pid : Int) (time : ℚ) (ref : HeapRef)
    {array : HeapArray} {ledger : Ledger} (owns : Owns ledger (array.blocks + rest)) :
    Owns (snapshotHeap info pid time ref array ledger).ledger
      ((snapshotHeap info pid time ref array ledger).blocks + rest) := by
  apply buildTreeHeap_owns
  refine owns.congr ?_
  simp only [HeapBuild.blocks, HeapArray.blocks, update_blocks]

theorem initCells_owns (info : FixedSystemInfo) (pid : Int) (time : ℚ) {ref : HeapRef}
    {array : HeapArray} {ledger : Ledger} (nonempty : array.cells.length ≠ 0)
    (owns : Owns ledger (array.blocks + (ref.arrayBlock + rest))) :
    Owns (initCells info pid time ref array ledger).1.ledger
      ((initCells info pid time ref array ledger).1.blocks + rest) := by
  have built := snapshotHeap_owns info pid time ref owns
  have linked : Owns (linkedHeap ref (snapshotHeap info pid time ref array ledger)).ledger
      ((linkedHeap ref (snapshotHeap info pid time ref array ledger)).blocks + rest) :=
    freeOldHeap_owns built
  simp only [initCells, if_neg nonempty]
  split
  · split
    · rw [deleteHeap_blocks, zero_add]
      exact deleteHeap_gives linked
    · refine linked.congr ?_
      simp only [HeapRef.blocks, HeapArray.blocks, linkedHeap, fillHeap_blocks]
  · exact linked

theorem processTreeInitHeap_owns (sys : Sys) (pid : Int) (scan : Scan) (growth : Nat → Nat)
    {ref : HeapRef} (owns : Owns ref.ledger (ref.blocks + rest)) :
    Owns (processTreeInitHeap sys pid scan growth ref).1.ledger
      ((processTreeInitHeap sys pid scan growth ref).1.blocks +
        (lostBlocks sys ref (.init pid scan growth) + rest)) := by
  have freed := freePartsHeap_owns owns
  have read := initprocesstreeHeap_records sys scan pid growth (freePartsHeap ref)
  unfold processTreeInitHeap
  cases scanned : initprocesstreeHeap sys scan pid growth (freePartsHeap ref) with
  | none =>
      rw [scanned] at read
      have none : initprocesstreeSysdep sys scan pid = none := Option.map_eq_none_iff.mp read.symm
      have lost : lostBlocks sys ref (.init pid scan growth) = ref.arrayBlock := by
        simp [lostBlocks, scanFindsNothing, none]
      rw [lost]
      exact failScanHeap_owns (freed.congr (zero_add _).symm)
  | some result =>
      obtain ⟨array, ledger⟩ := result
      have owned := initprocesstreeHeap_owns freed scanned
      rw [scanned] at read
      obtain ⟨records, recordsEq, stored⟩ := Option.map_eq_some_iff.mp read.symm
      have length : array.cells.length = records.length := by
        simpa [cellEntries] using (congrArg List.length stored).symm
      by_cases none : records = []
      · have lost : lostBlocks sys ref (.init pid scan growth) = ref.arrayBlock := by
          simp [lostBlocks, scanFindsNothing, recordsEq, none]
        have empty : array.cells.length = 0 := by rw [length, none, List.length_nil]
        simp only [initCells, if_pos empty, lost]
        exact failScanHeap_owns owned
      · have lost : lostBlocks sys ref (.init pid scan growth) = 0 := by
          simp [lostBlocks, scanFindsNothing, recordsEq, none]
        rw [lost, zero_add]
        refine initCells_owns sys.info pid _ ?_ owned
        rw [length]
        exact fun zero => none (List.length_eq_zero_iff.mp zero)

theorem heapStep_owns (sys : Sys) {ref : HeapRef} (call : HeapCall)
    (owns : Owns ref.ledger (ref.blocks + rest)) :
    Owns (heapStep sys ref call).ledger
      ((heapStep sys ref call).blocks + (lostBlocks sys ref call + rest)) := by
  cases call with
  | init pid scan growth => exact processTreeInitHeap_owns sys pid scan growth owns
  | delete =>
      refine (deleteHeap_gives owns).congr ?_
      simp [heapStep, deleteHeap_blocks, lostBlocks]

theorem heapRun_owns (sys : Sys) {ref : HeapRef} (calls : List HeapCall)
    (owns : Owns ref.ledger (ref.blocks + rest)) :
    Owns (Loop.run (heapStep sys) ref calls).ledger
      ((Loop.run (heapStep sys) ref calls).blocks + (leaks sys ref calls + rest)) := by
  induction calls generalizing ref rest with
  | nil => exact owns.congr (by simp [leaks, Loop.run])
  | cons call calls ih =>
      refine (ih (heapStep_owns sys call owns)).congr ?_
      simp only [leaks, Loop.run, List.foldl_cons]
      abel

theorem afterHeapCalls_owns (sys : Sys) (calls : List HeapCall) :
    Owns (afterHeapCalls sys calls).ledger
      ((afterHeapCalls sys calls).blocks + leaks sys {} calls) := by
  have start : Owns ({} : HeapRef).ledger (({} : HeapRef).blocks + 0) := owns_initial
  have owned := heapRun_owns sys calls start
  rwa [add_zero] at owned

end Accounts

/-- The heap of every run: each live block is owned exactly once by the current tree, or is
the array of a tree whose update found nothing; every other block was released, once. -/
theorem heap_accounts (sys : Sys) (calls : List HeapCall) :
    Owns (afterHeapCalls sys calls).ledger
        ((afterHeapCalls sys calls).blocks + leaks sys {} calls) ∧
      visibleEntries (afterHeapCalls sys calls).values =
        visibleEntries (afterCalls sys (calls.map HeapCall.call)) ∧
      (afterHeapCalls sys calls).pTreeSize =
        (afterCalls sys (calls.map HeapCall.call)).pTreeSize := by
  have same := afterHeapCalls_same sys calls
  exact ⟨afterHeapCalls_owns sys calls, same.visible, same.size⟩

instance (sys : Sys) (ref : TreeRef) : (call : TreeCall) → Decidable (abandons sys ref call)
  | .init _ _ => inferInstanceAs (Decidable (_ ∧ _))
  | .delete => inferInstanceAs (Decidable False)

def abandonedCalls (sys : Sys) : TreeRef → List TreeCall → Nat
  | _, [] => 0
  | ref, call :: calls =>
      (if abandons sys ref call then 1 else 0) + abandonedCalls sys (callStep sys ref call) calls

theorem lostBlocks_card (sys : Sys) {heap : HeapRef} {ref : TreeRef} (same : SameTree heap ref)
    (call : HeapCall) :
    (lostBlocks sys heap call).card = if abandons sys ref call.call then 1 else 0 := by
  cases call with
  | delete => rfl
  | init pid scan growth =>
      have present : heap.ppTree.isSome = ref.ppTree.isSome := by
        simpa using congrArg Option.isSome same.entries
      simp only [lostBlocks, HeapCall.call, abandons, ← present, HeapRef.arrayBlock]
      by_cases nothing : scanFindsNothing sys pid scan
      · have empty : (initprocesstreeSysdep sys scan pid).getD [] = [] := nothing
        cases heap.ppTree <;> simp [nothing, empty]
      · have found : ¬(initprocesstreeSysdep sys scan pid).getD [] = [] := nothing
        simp [nothing, found]

theorem leaks_card (sys : Sys) {heap : HeapRef} {ref : TreeRef} (same : SameTree heap ref)
    (calls : List HeapCall) :
    (leaks sys heap calls).card = abandonedCalls sys ref (calls.map HeapCall.call) := by
  induction calls generalizing heap ref with
  | nil => rfl
  | cons call calls ih =>
      rw [leaks, Multiset.card_add, lostBlocks_card sys same call,
        ih (heapStep_same sys heap ref call same)]
      rfl

theorem leaks_concat (sys : Sys) (ref : HeapRef) (calls : List HeapCall) (call : HeapCall) :
    leaks sys ref (calls ++ [call]) =
      leaks sys ref calls + lostBlocks sys (Loop.run (heapStep sys) ref calls) call := by
  induction calls generalizing ref with
  | nil => simp [leaks, Loop.run]
  | cons first calls ih =>
      rw [List.cons_append, leaks, leaks, ih, add_assoc]
      rfl

/-- Once the tree is deleted, one block is live for each call that gave up a tree, as `glob`
failed or the scan stored no process. -/
theorem heap_afterDelete (sys : Sys) (calls : List HeapCall) :
    (afterHeapCalls sys (calls ++ [.delete])).ledger.live.card =
      abandonedCalls sys {} (calls.map HeapCall.call) := by
  have owned := afterHeapCalls_owns sys (calls ++ [.delete])
  have nothing : (afterHeapCalls sys (calls ++ [.delete])).blocks = 0 := by
    rw [afterHeapCalls, Loop.run_concat]
    exact deleteHeap_blocks _
  rw [nothing, zero_add, leaks_concat] at owned
  have start : SameTree {} {} := ⟨rfl, rfl⟩
  have card := congrArg Multiset.card owned.live
  rw [Finset.card_val, lostBlocks, add_zero, leaks_card sys start] at card
  exact card

end SimpleProcessMonitor
