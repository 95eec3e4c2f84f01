import SimpleProcessMonitor.HeapChecks
import SimpleProcessMonitor.MonitorCore
import SimpleProcessMonitor.ReportChecks

/-!
The threads of `logTopCpu` in every order of their steps: the results they leave, and the
blocks that stay live behind them.
-/

namespace SimpleProcessMonitor

open Allocation CString Turns

theorem SameTree.getTopProcessInfos {heap : HeapRef} {ref : TreeRef} (same : SameTree heap ref)
    (queue : PriorityQueue) (type : TopInfoType) (count : Int) :
    getTopProcessInfos queue type count heap.values =
      SimpleProcessMonitor.getTopProcessInfos queue type count ref := by
  have size : heap.values.pTreeSize = ref.pTreeSize := same.size
  unfold SimpleProcessMonitor.getTopProcessInfos
  rw [same.visible, size]

theorem map_eq_zipIdx {α β γ : Type} {items : List α} {others : List β} {view : α → γ}
    {image : β × Nat → γ} (length : items.length = others.length)
    (same : ∀ index item, items[index]? = some item →
      ∃ other, others[index]? = some other ∧ view item = image (other, index)) :
    items.map view = others.zipIdx.map image := by
  apply List.ext_getElem?
  intro index
  rw [List.getElem?_map, List.getElem?_map, List.getElem?_zipIdx]
  cases found : items[index]? with
  | none =>
      have outside : others[index]? = none := by
        rw [List.getElem?_eq_none_iff] at found ⊢
        omega
      rw [outside]
      rfl
  | some item =>
      obtain ⟨other, read, equal⟩ := same index item found
      simp [read, equal]

def Readings.calls (readings : Readings) (pid : Int) (type : TopInfoType) : List TreeCall :=
  (readings.scans type).map (TreeCall.init pid)

section Threads

variable (queue : PriorityQueue) (sys : Sys) (logCount : Int)

theorem Worker.init_same {worker : Worker} {ref : TreeRef} (same : SameTree (worker.ref {}) ref)
    (ledger : Ledger) (scan : Scan) (growth : Nat → Nat) :
    SameTree ((worker.store
      (processTreeInitHeap sys worker.pid scan growth (worker.ref ledger)).1).ref {})
      (processTreeInit sys worker.pid scan ref).1 := by
  have shared : SameTree (worker.ref ledger) ref := ⟨same.entries, same.size⟩
  have after := (shared.init sys worker.pid scan growth).1
  exact ⟨after.entries, after.size⟩

theorem Worker.init_lost {worker : Worker} {ref : TreeRef} (same : SameTree (worker.ref {}) ref)
    (ledger : Ledger) (scan : Scan) (growth : Nat → Nat) :
    (worker.lost + lostBlocks sys (worker.ref ledger) (.init worker.pid scan growth)).card =
      worker.lost.card + abandonedCalls sys ref [.init worker.pid scan] := by
  have shared : SameTree (worker.ref ledger) ref := ⟨same.entries, same.size⟩
  rw [Multiset.card_add, lostBlocks_card sys shared]
  rfl

/-- What a thread has in front of each of its steps, whatever the other threads did. -/
def Progress (readings : Readings) (worker : Worker) : Prop :=
  let lostAll := abandonedCalls sys {} (readings.calls worker.pid worker.type)
  let result := collectTopInfo queue sys worker.pid logCount worker.type readings
  match worker.stage with
  | .construct => SameTree (worker.ref {}) {} ∧ worker.lost.card = 0
  | .update => worker.type = .cpu ∧
      SameTree (worker.ref {}) (updates sys worker.pid [readings.first]) ∧
      worker.lost.card = abandonedCalls sys {} [.init worker.pid readings.first]
  | .collect => SameTree (worker.ref {}) (updates sys worker.pid (readings.scans worker.type)) ∧
      worker.lost.card = lostAll
  | .destruct => worker.ret = result ∧ worker.lost.card = lostAll
  | .assign => worker.ret = result ∧ worker.pTree = none ∧ worker.lost.card = lostAll
  | .done => worker.slot = result ∧ worker.pTree = none ∧ worker.lost.card = lostAll

variable {queue sys logCount} {readings : Nat → Readings}

theorem workerStep_progress (index : Nat) (ledger : Ledger) (worker : Worker)
    (progress : Progress queue sys logCount (readings index) worker) :
    Progress queue sys logCount (readings index)
      (workerStep queue sys logCount readings index ledger worker).2 := by
  unfold Progress at progress
  unfold workerStep
  cases stage : worker.stage with
  | construct =>
      simp only [stage] at progress
      obtain ⟨same, lost⟩ := progress
      have after := Worker.init_same sys same ledger (readings index).first
        (readings index).firstGrowth
      have lostAfter := Worker.init_lost sys same ledger (readings index).first
        (readings index).firstGrowth
      rw [lost, Nat.zero_add] at lostAfter
      cases type : worker.type with
      | cpu =>
          simp only [Progress, if_true]
          exact ⟨type, after, lostAfter⟩
      | ram =>
          simp only [Progress, type, Worker.store]
          exact ⟨after, lostAfter⟩
  | update =>
      simp only [stage] at progress
      obtain ⟨type, same, lost⟩ := progress
      have after := Worker.init_same sys same ledger (readings index).second
        (readings index).secondGrowth
      have lostAfter := Worker.init_lost sys same ledger (readings index).second
        (readings index).secondGrowth
      rw [lost] at lostAfter
      simp only [Progress, Worker.store, type]
      refine ⟨after, lostAfter.trans ?_⟩
      simp only [Readings.calls, Readings.scans, List.map_cons, List.map_nil, abandonedCalls, add_zero]
      rfl
  | collect =>
      simp only [stage] at progress
      obtain ⟨same, lost⟩ := progress
      have shared : SameTree (worker.ref ledger)
          (updates sys worker.pid ((readings index).scans worker.type)) := ⟨same.entries, same.size⟩
      exact ⟨shared.getTopProcessInfos queue worker.type logCount, lost⟩
  | destruct =>
      simp only [stage] at progress
      exact ⟨progress.1, deleteHeap_none, progress.2⟩
  | assign =>
      simp only [stage] at progress
      exact progress
  | done =>
      simp only [stage] at progress
      simpa only [Progress, stage] using progress

/-! The steps that are left, and the blocks. -/

def WorkerStage.next (type : TopInfoType) : WorkerStage → WorkerStage
  | .construct => if type = .cpu then .update else .collect
  | .update => .collect
  | .collect => .destruct
  | .destruct => .assign
  | .assign => .done
  | .done => .done

theorem workerStep_stage (index : Nat) (ledger : Ledger) (worker : Worker) :
    ((workerStep queue sys logCount readings index ledger worker).2.type,
        (workerStep queue sys logCount readings index ledger worker).2.stage) =
      (worker.type, worker.stage.next worker.type) := by
  unfold workerStep
  cases stage : worker.stage <;> simp [WorkerStage.next, Worker.store, stage]

theorem stage_done (type : TopInfoType) {count : Nat} (enough : 5 ≤ count) :
    ((fun state : TopInfoType × WorkerStage => (state.1, state.2.next state.1))^[count]
      (type, .construct)) = (type, .done) := by
  obtain ⟨more, rfl⟩ := Nat.exists_eq_add_of_le' enough
  rw [Function.iterate_add_apply]
  have finished : (fun state : TopInfoType × WorkerStage => (state.1, state.2.next state.1))^[5]
      (type, .construct) = (type, .done) := by
    cases type <;> rfl
  rw [finished]
  exact Function.iterate_fixed rfl more

def Worker.blocks (worker : Worker) : Multiset Nat :=
  (worker.ref {}).blocks + worker.lost

theorem Worker.init_owns {rest : Multiset Nat} {ledger : Ledger} {worker : Worker}
    (owns : Owns ledger (worker.blocks + rest)) (scan : Scan) (growth : Nat → Nat) :
    Owns (processTreeInitHeap sys worker.pid scan growth (worker.ref ledger)).1.ledger
      ((processTreeInitHeap sys worker.pid scan growth (worker.ref ledger)).1.blocks +
        (worker.lost + lostBlocks sys (worker.ref ledger) (.init worker.pid scan growth)) + rest) := by
  have started : Owns (worker.ref ledger).ledger
      ((worker.ref ledger).blocks + (worker.lost + rest)) := by
    rw [← add_assoc]
    exact owns
  refine (processTreeInitHeap_owns sys worker.pid scan growth started).congr ?_
  abel

theorem workerStep_owns {rest : Multiset Nat} {ledger : Ledger} (index : Nat) (worker : Worker)
    (owns : Owns ledger (worker.blocks + rest)) :
    Owns (workerStep queue sys logCount readings index ledger worker).1
      ((workerStep queue sys logCount readings index ledger worker).2.blocks + rest) := by
  unfold workerStep
  cases worker.stage with
  | construct => exact Worker.init_owns owns (readings index).first (readings index).firstGrowth
  | update => exact Worker.init_owns owns (readings index).second (readings index).secondGrowth
  | collect => exact owns
  | destruct =>
      have started : Owns (worker.ref ledger).ledger
          ((worker.ref ledger).blocks + (worker.lost + rest)) := by
        rw [← add_assoc]
        exact owns
      have deleted := deleteHeap_blocks (worker.ref ledger)
      refine (deleteHeap_gives started).congr ?_
      change _ = (deleteHeap (worker.ref ledger)).blocks + worker.lost + rest
      rw [deleted, zero_add]
  | assign => exact owns
  | done => exact owns

theorem runWorkers_member (ledger : Ledger) (type : TopInfoType) (pids : List Int)
    (schedule : List Nat) {index : Nat} {worker : Worker}
    (found : (runWorkers queue sys logCount readings ledger type pids schedule).members[index]? =
      some worker) :
    pids[index]? = some worker.pid ∧ worker.type = type ∧
      Progress queue sys logCount (readings index) worker := by
  refine runTurns_invariant (fun index (worker : Worker) => pids[index]? = some worker.pid ∧
    worker.type = type ∧ Progress queue sys logCount (readings index) worker) ?_ ?_ schedule found
  · rintro index ledger worker ⟨pid, typeEq, progress⟩
    have kept : (workerStep queue sys logCount readings index ledger worker).2.pid = worker.pid := by
      unfold workerStep
      cases worker.stage <;> rfl
    have stage := Prod.mk.inj
      (@workerStep_stage queue sys logCount readings index ledger worker)
    exact ⟨kept ▸ pid, stage.1.trans typeEq, workerStep_progress index ledger worker progress⟩
  · intro index worker start
    rw [List.getElem?_map] at start
    obtain ⟨pid, pidEq, rfl⟩ := Option.map_eq_some_iff.mp start
    exact ⟨pidEq, rfl, ⟨rfl, rfl⟩, rfl⟩

theorem runWorkers_length (ledger : Ledger) (type : TopInfoType) (pids : List Int)
    (schedule : List Nat) :
    (runWorkers queue sys logCount readings ledger type pids schedule).members.length =
      pids.length := by
  have kept := @runTurns_length _ _ (workerStep queue sys logCount readings)
    ⟨ledger, pids.map fun pid => { pid := pid, type := type }⟩ schedule
  exact kept.trans (List.length_map _)

theorem runWorkers_done (ledger : Ledger) (type : TopInfoType) (pids : List Int)
    {schedule : List Nat} (complete : ∀ index < pids.length, 5 ≤ schedule.count index)
    {index : Nat} {worker : Worker}
    (found : (runWorkers queue sys logCount readings ledger type pids schedule).members[index]? =
      some worker) : worker.stage = .done := by
  have turns := @runTurns_view _ _ _ (workerStep queue sys logCount readings)
    (fun worker => (worker.type, worker.stage)) (fun _ state => (state.1, state.2.next state.1))
    (fun index ledger worker => workerStep_stage index ledger worker)
    ⟨ledger, pids.map fun pid => { pid := pid, type := type }⟩ schedule index
  have member := runWorkers_member ledger type pids schedule found
  have inside : index < pids.length := (List.getElem?_eq_some_iff.mp member.1).1
  change ((runWorkers queue sys logCount readings ledger type pids schedule).members[index]?).map _ =
    _ at turns
  rw [found, List.getElem?_map, member.1, Option.map_some, Option.map_some, Option.map_some,
    stage_done type (complete index inside)] at turns
  exact (Prod.mk.inj (Option.some.inj turns)).2

theorem runWorkers_owns {ledger : Ledger} {rest : Multiset Nat} (owns : Owns ledger rest)
    (type : TopInfoType) (pids : List Int) (schedule : List Nat) :
    Owns (runWorkers queue sys logCount readings ledger type pids schedule).shared
      (((runWorkers queue sys logCount readings ledger type pids schedule).members.map
        Worker.blocks).sum + rest) := by
  refine runTurns_owns (fun index worker owned => workerStep_owns index worker owned) schedule
    (owns.congr ?_)
  have none : ((pids.map fun pid => ({ pid := pid, type := type } : Worker)).map
      Worker.blocks).sum = 0 := by
    rw [List.map_map]
    exact List.sum_eq_zero fun blocks member => by
      obtain ⟨pid, -, rfl⟩ := List.mem_map.mp member
      rfl
  rw [none, zero_add]

section Joined

variable (ledger : Ledger) (type : TopInfoType) (pids : List Int) {schedule : List Nat}
  (complete : ∀ index < pids.length, 5 ≤ schedule.count index)

include complete

theorem runWorkers_results {index : Nat} {worker : Worker}
    (found : (runWorkers queue sys logCount readings ledger type pids schedule).members[index]? =
      some worker) :
    pids[index]? = some worker.pid ∧
      worker.slot = collectTopInfo queue sys worker.pid logCount type (readings index) ∧
      worker.blocks = worker.lost ∧
      worker.lost.card = abandonedCalls sys {} ((readings index).calls worker.pid type) := by
  obtain ⟨pid, rfl, progress⟩ := runWorkers_member ledger type pids schedule found
  have done := runWorkers_done ledger worker.type pids complete found
  simp only [Progress, done] at progress
  obtain ⟨slot, none, lost⟩ := progress
  refine ⟨pid, slot, ?_, lost⟩
  simp [Worker.blocks, HeapRef.blocks, Worker.ref, none]

theorem runWorkers_slots :
    (runWorkers queue sys logCount readings ledger type pids schedule).members.map (·.slot) =
      pids.zipIdx.map fun process =>
        collectTopInfo queue sys process.1 logCount type (readings process.2) := by
  apply map_eq_zipIdx (runWorkers_length ledger type pids schedule)
  intro index worker found
  obtain ⟨pid, slot, -⟩ := runWorkers_results ledger type pids complete found
  exact ⟨worker.pid, pid, slot⟩

end Joined

/-- When all threads are joined, every slot holds what its process alone gives, and of the
blocks of all threads those arrays are live that a second update gave up. -/
theorem runWorkers_joined {ledger : Ledger} {rest : Multiset Nat} (owns : Owns ledger rest)
    (type : TopInfoType) (pids : List Int) {schedule : List Nat}
    (complete : ∀ index < pids.length, 5 ≤ schedule.count index) :
    let team := runWorkers queue sys logCount readings ledger type pids schedule
    team.members.map (·.slot) = pids.zipIdx.map (fun process =>
        collectTopInfo queue sys process.1 logCount type (readings process.2)) ∧
      Owns team.shared ((team.members.map (·.lost)).sum + rest) ∧
      team.members.map (·.lost.card) = pids.zipIdx.map fun process =>
        abandonedCalls sys {} ((readings process.2).calls process.1 type) := by
  intro team
  have owned : Owns team.shared ((team.members.map Worker.blocks).sum + rest) :=
    runWorkers_owns owns type pids schedule
  have blocks : team.members.map Worker.blocks = team.members.map (·.lost) := by
    apply List.map_congr_left
    intro worker member
    obtain ⟨index, found⟩ := List.mem_iff_getElem?.mp member
    exact (runWorkers_results ledger type pids complete found).2.2.1
  refine ⟨runWorkers_slots ledger type pids complete, blocks ▸ owned,
    map_eq_zipIdx (runWorkers_length ledger type pids schedule) ?_⟩
  intro index worker found
  obtain ⟨pid, -, -, lost⟩ := runWorkers_results ledger type pids complete found
  exact ⟨worker.pid, pid, lost⟩

end Threads

def sampleThread (path : String) : GlobEntry :=
  { initProcess with path := bytes path }

/-- The second process exits while its monitor sleeps. -/
def sampleReadings (index : Nat) : Readings where
  first := sampleScan "cpu 1 2 3 4 5 6 7 8"
    [sampleThread (if index = 0 then "/proc/1/task/1" else "/proc/7/task/7")]
  firstGrowth _ := 0
  second :=
    if index = 0 then sampleScan "cpu 1 2 3 9 5 6 7 8" [sampleThread "/proc/1/task/1"]
    else { glob := none, starttime := 0, procStat := .openFailed }
  secondGrowth _ := 1

theorem runWorkers_joined_sample :
    let team := runWorkers listQueue sampleSys 5 sampleReadings {} .cpu [1, 7]
      [0, 1, 1, 0, 0, 1, 0, 1, 1, 0]
    Owns team.shared ((team.members.map (·.lost)).sum + 0) ∧
      team.members.map (·.lost.card) = [0, 1] := by
  obtain ⟨-, owns, cards⟩ := @runWorkers_joined listQueue sampleSys 5 sampleReadings {} 0
    owns_initial .cpu [1, 7] [0, 1, 1, 0, 0, 1, 0, 1, 1, 0] (by decide)
  exact ⟨owns, cards.trans (by decide +kernel)⟩

end SimpleProcessMonitor
