import SimpleProcessMonitor.InitChecks

/-!
The tree arrays over any run of `ProcessTree_init` and `ProcessTree_delete`: which of them
are live after each call, and which were released.
-/

namespace SimpleProcessMonitor

open Allocation

inductive TreeCall
  | init (pid : Int) (scan : Scan)
  | delete

def callStep (sys : Sys) (ref : TreeRef) : TreeCall → TreeRef
  | .init pid scan => (processTreeInit sys pid scan ref).1
  | .delete => processTreeDelete ref

def afterCalls (sys : Sys) (calls : List TreeCall) : TreeRef :=
  Loop.run (callStep sys) {} calls

def owners (ref : TreeRef) : Finset Nat :=
  (ref.ppTree.map (·.block)).toFinset

theorem buildStep_ledger (input : BuildInput) (index : Nat) (state : BuildState) :
    ((buildStep input index state).block = state.block ∧
      (buildStep input index state).ledger = state.ledger) ∨
    ((buildStep input index state).block = (state.ledger.resize state.block).1 ∧
      (buildStep input index state).ledger = (state.ledger.resize state.block).2) := by
  simp only [buildStep, linkProcess]
  split
  · exact Or.inl ⟨rfl, rfl⟩
  · split
    · split
      · exact Or.inr ⟨rfl, rfl⟩
      · exact Or.inl ⟨rfl, rfl⟩
    · exact Or.inl ⟨rfl, rfl⟩

theorem snapshot_ledger (info : FixedSystemInfo) (pid : Int) (time : ℚ) (ref : TreeRef)
    (records : List ProcessRecord) (sound : Sound ref.ledger) :
    Holds (snapshot info pid time ref records).ledger
      (insert (snapshot info pid time ref records).block ref.ledger.live) ∧
    (snapshot info pid time ref records).block ∉ ref.ledger.live := by
  have start : Holds ref.ledger ref.ledger.live := ⟨sound, rfl⟩
  apply buildTree_rule (buildInput info pid time ref) (fun _ state =>
    Holds state.ledger (insert state.block ref.ledger.live) ∧ state.block ∉ ref.ledger.live)
  · exact ⟨start.alloc, start.alloc_fresh⟩
  · rintro index state _ ⟨holds, absent⟩
    rcases buildStep_ledger (buildInput info pid time ref) index state with ⟨block, ledger⟩ |
      ⟨block, ledger⟩
    · rw [block, ledger]
      exact ⟨holds, absent⟩
    · rw [block, ledger]
      exact holds.resize absent

/-- Every array that was ever given out is accounted for. -/
structure Accounted (ref : TreeRef) : Prop where
  sound : Sound ref.ledger
  owned : ∀ tree, ref.ppTree = some tree → tree.block ∈ ref.ledger.live

/-- The call gives up `*ppTree` without releasing what it referred to: there was a tree, and
`glob` failed or the scan stored no process. -/
def abandons (sys : Sys) (ref : TreeRef) : TreeCall → Prop
  | .init pid scan =>
      ref.ppTree.isSome ∧ (initprocesstreeSysdep sys scan pid).getD [] = []
  | .delete => False

structure Transfers (sys : Sys) (call : TreeCall) (before after : TreeRef) : Prop where
  sound : Sound after.ledger
  live : ¬abandons sys before call →
    after.ledger.live = owners after ∪ (before.ledger.live \ owners before)
  lost : abandons sys before call → after.ppTree = none ∧ after.ledger.live = before.ledger.live

theorem owners_none {ref : TreeRef} (none : ref.ppTree = none) : owners ref = ∅ := by
  simp [owners, none]

theorem owners_some {ref : TreeRef} {tree : TreeArray} (some : ref.ppTree = some tree) :
    owners ref = {tree.block} := by
  simp [owners, some]

theorem linkedRef_ledger {ref : TreeRef} (accounted : Accounted ref) (info : FixedSystemInfo)
    (pid : Int) (time : ℚ) (records : List ProcessRecord) :
    let built := snapshot info pid time ref records
    Sound (linkedRef ref built).ledger ∧ built.block ∉ ref.ledger.live ∧
      (linkedRef ref built).ledger.live = insert built.block (ref.ledger.live \ owners ref) := by
  intro built
  obtain ⟨⟨sound, live⟩, absent⟩ := snapshot_ledger info pid time ref records accounted.sound
  cases old : ref.ppTree with
  | none =>
      simp only [linkedRef, freeOld, old, owners_none old, Finset.sdiff_empty]
      exact ⟨sound, absent, live⟩
  | some tree =>
      have known := accounted.owned tree old
      have different : tree.block ≠ built.block := fun same => absent (same ▸ known)
      simp only [linkedRef, freeOld, old, owners_some old, Finset.sdiff_singleton_eq_erase]
      refine ⟨sound.release ?_, absent, ?_⟩
      · rw [live]
        exact Finset.mem_insert_of_mem known
      · simp only [Ledger.release]
        rw [live, Finset.erase_insert_of_ne different.symm]

theorem processTreeDelete_transfers (sys : Sys) {ref : TreeRef} (accounted : Accounted ref) :
    Transfers sys .delete ref (processTreeDelete ref) := by
  refine ⟨?_, ?_, fun abandoned => abandoned.elim⟩
  all_goals
    simp only [processTreeDelete, delete]
    split
  · exact accounted.sound
  · rename_i tree old
    exact accounted.sound.release (accounted.owned tree old)
  · rename_i old
    intro _
    simp [owners_none old]
  · rename_i tree old
    intro _
    simp [owners, old, Ledger.release, Finset.sdiff_singleton_eq_erase]

theorem emptyScan_transfers {sys : Sys} {pid : Int} {scan : Scan} {ref : TreeRef}
    (accounted : Accounted ref) (read : initprocesstreeSysdep sys scan pid = some []) :
    Transfers sys (.init pid scan) ref (failScan ref
      { ppTree := some ⟨ref.ledger.alloc.1, []⟩, pTreeSize := 0, ledger := ref.ledger.alloc.2 }) := by
  have fresh : ref.ledger.alloc.1 ∉ ref.ledger.live := accounted.sound.next_notMem
  have allocated : ref.ledger.alloc.2.live = insert ref.ledger.alloc.1 ref.ledger.live := rfl
  cases old : ref.ppTree with
  | none =>
      have kept : ¬abandons sys ref (.init pid scan) := by simp [abandons, old]
      refine ⟨?_, ?_, fun abandoned => absurd abandoned kept⟩
      · simpa [failScan, old] using accounted.sound.alloc
      · intro _
        simp [failScan, old, owners, allocated]
  | some tree =>
      have lost : abandons sys ref (.init pid scan) := by simp [abandons, old, read]
      refine ⟨?_, fun kept => absurd lost kept, ?_⟩
      · simp only [failScan, old, delete, Option.isSome_some, if_true]
        apply accounted.sound.alloc.release
        rw [allocated]
        exact Finset.mem_insert_self _ _
      · intro _
        simp [failScan, old, delete, Ledger.release, allocated, Finset.erase_insert fresh]

theorem processTreeInit_transfers (sys : Sys) (pid : Int) (scan : Scan) {ref : TreeRef}
    (accounted : Accounted ref) :
    Transfers sys (.init pid scan) ref (processTreeInit sys pid scan ref).1 := by
  cases read : initprocesstreeSysdep sys scan pid with
  | none =>
      have exit : (processTreeInit sys pid scan ref).1 =
          { ppTree := none, pTreeSize := 0, ledger := ref.ledger } := by
        simp [processTreeInit, read, failScan, delete]
      rw [exit]
      refine ⟨accounted.sound, ?_, fun _ => ⟨rfl, rfl⟩⟩
      intro kept
      have none : ref.ppTree = none := by simpa [abandons, read] using kept
      simp [owners, none]
  | some records =>
      simp only [processTreeInit, read]
      generalize getNowSingleCoreCpuTime sys.info scan.procStat scan.stack = now
      obtain ⟨sound, absent, live⟩ := linkedRef_ledger accounted sys.info pid now records
      have kept (nonempty : records ≠ []) : ¬abandons sys ref (.init pid scan) := by
        simp [abandons, read, nonempty]
      rcases initRecords_cases sys.info pid now ref records with ⟨none, exit⟩ |
        ⟨nonempty, _, _, exit⟩ | ⟨nonempty, _, entries, _, exit⟩
      · rw [exit]
        exact emptyScan_transfers accounted (none ▸ read)
      · rw [exit]
        refine ⟨?_, ?_, fun lost => absurd lost (kept nonempty)⟩
        · apply sound.release
          rw [live]
          exact Finset.mem_insert_self _ _
        · intro _
          have notOld : (snapshot sys.info pid now ref records).block ∉
              ref.ledger.live \ owners ref := fun member => absent (Finset.mem_sdiff.mp member).1
          change (linkedRef ref _).ledger.live.erase _ = _
          rw [live, Finset.erase_insert notOld]
          simp [owners, delete, linkedRef]
      · rw [exit]
        refine ⟨sound, ?_, fun lost => absurd lost (kept nonempty)⟩
        intro _
        change (linkedRef ref _).ledger.live = _
        rw [live]
        rfl

theorem callStep_transfers (sys : Sys) {ref : TreeRef} (accounted : Accounted ref)
    (call : TreeCall) : Transfers sys call ref (callStep sys ref call) := by
  cases call with
  | init pid scan => exact processTreeInit_transfers sys pid scan accounted
  | delete => exact processTreeDelete_transfers sys accounted

theorem callStep_accounted (sys : Sys) (ref : TreeRef) (call : TreeCall)
    (accounted : Accounted ref) : Accounted (callStep sys ref call) := by
  have transfers := callStep_transfers sys accounted call
  refine ⟨transfers.sound, ?_⟩
  intro tree treeEq
  by_cases lost : abandons sys ref call
  · rw [(transfers.lost lost).1] at treeEq
    cases treeEq
  · rw [transfers.live lost, owners_some treeEq]
    exact Finset.mem_union_left _ (Finset.mem_singleton_self _)

theorem afterCalls_accounted (sys : Sys) (calls : List TreeCall) :
    Accounted (afterCalls sys calls) :=
  Loop.run_invariant Accounted ⟨sound_initial, fun _ impossible => by cases impossible⟩
    (callStep_accounted sys) calls

/-- The only live array is the one `*ppTree` refers to, and none was released twice. -/
structure SoleOwner (ref : TreeRef) : Prop where
  live : ref.ledger.live = owners ref
  releasedOnce : ref.ledger.released.Nodup

theorem callStep_soleOwner (sys : Sys) {ref : TreeRef} (accounted : Accounted ref)
    (sole : SoleOwner ref) (call : TreeCall) :
    SoleOwner (callStep sys ref call) ↔ ¬abandons sys ref call := by
  have transfers := callStep_transfers sys accounted call
  by_cases lost : abandons sys ref call
  · refine iff_of_false ?_ (fun kept => kept lost)
    intro after
    obtain ⟨none, live⟩ := transfers.lost lost
    have empty : ref.ledger.live = ∅ := by rw [← live, after.live, owners_none none]
    cases call with
    | init pid scan =>
        obtain ⟨tree, treeEq⟩ := Option.isSome_iff_exists.mp lost.1
        have known := accounted.owned tree treeEq
        rw [empty] at known
        cases known
    | delete => exact lost
  · refine iff_of_true ⟨?_, transfers.sound.releasedOnce⟩ lost
    rw [transfers.live lost, sole.live, Finset.sdiff_self, Finset.union_empty]

/-- Ownership holds throughout a run if and only if no scan fails while there is a tree. -/
theorem soleOwner_iff (sys : Sys) (calls : List TreeCall) :
    (∀ done, done <+: calls → SoleOwner (afterCalls sys done)) ↔
      ∀ done call, done ++ [call] <+: calls → ¬abandons sys (afterCalls sys done) call := by
  have step (done : List TreeCall) (call : TreeCall) (sole : SoleOwner (afterCalls sys done)) :
      SoleOwner (afterCalls sys (done ++ [call])) ↔ ¬abandons sys (afterCalls sys done) call := by
    rw [afterCalls, Loop.run_concat]
    exact callStep_soleOwner sys (afterCalls_accounted sys done) sole call
  constructor
  · intro sole done call within
    have before := sole done ((List.prefix_append done [call]).trans within)
    exact (step done call before).mp (sole _ within)
  · intro kept done within
    induction done using List.reverseRecOn with
    | nil => exact ⟨rfl, List.nodup_nil⟩
    | append_singleton done call ih =>
        have before := ih ((List.prefix_append done [call]).trans within)
        exact (step done call before).mpr (kept done call within)

/-- The first scan reads a process and the second glob fails: the array of the first is
live for ever. -/
theorem soleOwner_failedGlob :
    ¬SoleOwner (afterCalls sampleSys [
      .init allProcesses (sampleScan "cpu 1 2 3 4 5 6 7 8" [initProcess]),
      .init allProcesses { glob := none, starttime := 0, procStat := .openFailed }]) := by
  intro sole
  have leaked : ((afterCalls sampleSys [
      .init allProcesses (sampleScan "cpu 1 2 3 4 5 6 7 8" [initProcess]),
      .init allProcesses { glob := none, starttime := 0, procStat := .openFailed }]).ledger.live,
      owners (afterCalls sampleSys [
      .init allProcesses (sampleScan "cpu 1 2 3 4 5 6 7 8" [initProcess]),
      .init allProcesses { glob := none, starttime := 0, procStat := .openFailed }])) =
      ({1}, ∅) := by decide +kernel
  obtain ⟨live, none⟩ := Prod.mk.inj leaked
  rw [sole.live, none] at live
  exact absurd live (by decide)

end SimpleProcessMonitor
