import SimpleProcessMonitor.ProcessTreeTotal

/-!
`ProcessTree_init` and `ProcessTree_delete` as transitions of the caller's pointer and
size. A tree array carries the name of its allocation; a ledger records which arrays are
live and which were released. The strings and lists inside the entries are plain values.
-/

namespace SimpleProcessMonitor

open Allocation

structure TreeArray where
  block : Nat
  entries : Entries

structure TreeRef where
  ppTree : Option TreeArray := none
  pTreeSize : Int := 0
  ledger : Ledger := {}

def visibleEntries (ref : TreeRef) : Entries :=
  match ref.ppTree with
  | none => []
  | some tree => tree.entries

def delete (ref : TreeRef) : TreeRef :=
  match ref.ppTree with
  | none => ref
  | some tree => { ppTree := none, pTreeSize := 0, ledger := ref.ledger.release tree.block }

def setTime (time : ℚ) (entry : ProcessTreeT) : ProcessTreeT :=
  { entry with time := time }

/-- Only the cpu time of the old array is needed: its strings and lists are freed first. -/
def freeParts (entry : ProcessTreeT) : ProcessTreeT :=
  { entry with cmdline := none, children.list := [], secattr := none }

def oldptree (ref : TreeRef) : Option Entries :=
  ref.ppTree.map fun tree => tree.entries.map freeParts

def timePrev (ref : TreeRef) : ℚ :=
  match oldptree ref with
  | none => 0
  | some old => (entryAt old 0).time

def buildInput (info : FixedSystemInfo) (pid : Int) (time : ℚ) (ref : TreeRef) : BuildInput where
  info := info
  pid := pid
  oldptree := oldptree ref
  oldptreesize := ref.pTreeSize
  timeDelta := time - timePrev ref

def scannedEntries (records : List ProcessRecord) (time : ℚ) : Entries :=
  (records.map ProcessRecord.entry).modify 0 (setTime time)

/-- The state after the build loop over the array that the scan allocated. -/
def snapshot (info : FixedSystemInfo) (pid : Int) (time : ℚ) (ref : TreeRef)
    (records : List ProcessRecord) : BuildState :=
  buildTree (buildInput info pid time ref) {
    ledger := ref.ledger.alloc.2
    block := ref.ledger.alloc.1
    pt := scannedEntries records time
    root := -1
  }

def freeOld (ref : TreeRef) (ledger : Ledger) : Ledger :=
  match ref.ppTree with
  | none => ledger
  | some old => ledger.release old.block

def linkedRef (ref : TreeRef) (built : BuildState) : TreeRef where
  ppTree := some ⟨built.block, built.pt⟩
  pTreeSize := built.pt.length
  ledger := freeOld ref built.ledger

/-- The error exit before the build loop. Only a call that had an old array deletes, and
it deletes `*ppTree`, which by then refers to the new array or to none. -/
def failScan (ref scanned : TreeRef) : TreeRef :=
  if ref.ppTree.isSome then delete scanned else scanned

/-- `ProcessTree_init` once `_initprocesstree_sysdep` has stored its records: the new
pointer and size, and the result. -/
def initRecords (info : FixedSystemInfo) (pid : Int) (time : ℚ) (ref : TreeRef)
    (records : List ProcessRecord) : TreeRef × Int :=
  if records = [] then
    (failScan ref
      { ppTree := some ⟨ref.ledger.alloc.1, []⟩, pTreeSize := 0, ledger := ref.ledger.alloc.2 }, -1)
  else
    let built := snapshot info pid time ref records
    let linked := linkedRef ref built
    if pid = allProcesses then
      if built.root = -1 then (delete linked, -1)
      else
        ({ linked with ppTree := some ⟨built.block, (fillTree built.pt built.root.toNat).pt⟩ },
          linked.pTreeSize)
    else (linked, linked.pTreeSize)

/-- `ProcessTree_init`. A failed glob leaves `*ppTree` alone, which is NULL by then if
there was an old array. -/
def processTreeInit (sys : Sys) (pid : Int) (scan : Scan) (ref : TreeRef) : TreeRef × Int :=
  match initprocesstreeSysdep sys scan pid with
  | none =>
      (failScan ref { ppTree := none, pTreeSize := 0, ledger := ref.ledger }, -1)
  | some records =>
      initRecords sys.info pid (getNowSingleCoreCpuTime sys.info scan.procStat scan.stack) ref records

def processTreeDelete (ref : TreeRef) : TreeRef :=
  delete ref

end SimpleProcessMonitor
