import SimpleProcessMonitor.InitChecks
import SimpleProcessMonitor.WrapperCore

/-!
`ProcessTreeWrapper` over any sequence of updates: what the tree shows after each of them,
and when the selection of the top processes finds enough of them.
-/

namespace SimpleProcessMonitor

open CString Selection

/-! The two loops of the selection. -/

theorem map_entryAt_range (pt : Entries) : (List.range pt.length).map (entryAt pt) = pt := by
  apply List.ext_getElem (by simp)
  intro index inside _
  have bound : index < pt.length := by simpa using inside
  simp [entryAt, bound]

theorem countP_range (pt : Entries) (keep : ProcessTreeT → Bool) :
    (List.range pt.length).countP (fun index => keep (entryAt pt index)) = pt.countP keep := by
  have mapped := List.countP_map (p := keep) (f := entryAt pt) (l := List.range pt.length)
  rw [map_entryAt_range] at mapped
  exact mapped.symm

section Template

variable {κ : Type} [LinearOrder κ] {key : Nat → κ} (maxPQ : MaxQueue key) (pTree : Entries)

theorem takeEntries_drain (rounds : Nat) (queue : maxPQ.Carrier) (ret : List ProcessOrThreadInfo) :
    takeEntries maxPQ pTree rounds queue ret = (maxPQ.drain rounds queue).map fun taken =>
      ret ++ taken.map fun index => processInfo (entryAt pTree index) := by
  induction rounds generalizing queue ret with
  | zero => simp [takeEntries, MaxQueue.drain]
  | succ rounds ih =>
      simp only [takeEntries, MaxQueue.drain]
      cases maxPQ.top queue with
      | none => rfl
      | some item =>
          cases maxPQ.pop queue with
          | none => rfl
          | some rest =>
              simp only [ih, Option.map_map]
              congr 1
              funext taken
              simp

theorem pushEntries_contents (treeSize : Nat) :
    maxPQ.contents (pushEntries maxPQ pTree treeSize) =
      ((List.range treeSize).filter fun index => 0 < (entryAt pTree index).pid : List Nat) := by
  have pushed : pushEntries maxPQ pTree treeSize = maxPQ.pushAll
      ((List.range treeSize).filter fun index => 0 < (entryAt pTree index).pid) maxPQ.empty := by
    simp only [pushEntries, MaxQueue.pushAll, List.foldl_filter, decide_eq_true_eq]
  rw [pushed, maxPQ.contents_pushAll, maxPQ.contents_empty, add_zero]

theorem pushEntries_countP (keep : ProcessTreeT → Bool) :
    (maxPQ.contents (pushEntries maxPQ pTree pTree.length)).countP
        (fun index => keep (entryAt pTree index)) =
      pTree.countP fun entry => keep entry && decide (0 < entry.pid) := by
  rw [pushEntries_contents, Multiset.coe_countP, ← countP_range pTree, List.countP_filter]
  simp

theorem pushEntries_card :
    (maxPQ.contents (pushEntries maxPQ pTree pTree.length)).card =
      pTree.countP fun entry => 0 < entry.pid := by
  have all := pushEntries_countP maxPQ pTree (fun _ => true)
  simpa using all

theorem getTopProcessInfosWith_drain (count : Int) :
    getTopProcessInfosWith maxPQ pTree pTree.length count =
      (maxPQ.drain (min (pTree.length : Int) count).toNat
        (pushEntries maxPQ pTree pTree.length)).map
        fun taken => taken.map fun index => processInfo (entryAt pTree index) := by
  simp only [getTopProcessInfosWith, takeEntries_drain, Int.toNat_natCast, List.nil_append]

/-- The queue never runs empty if and only if the number of rounds, which counts every
entry, fits the entries pushed. The result then has one element for each round. -/
theorem getTopProcessInfosWith_length (count : Int) (size : Nat) :
    (∃ infos, getTopProcessInfosWith maxPQ pTree pTree.length count = some infos ∧
      infos.length = size) ↔
    (min (pTree.length : Int) count).toNat = size ∧
      size ≤ pTree.countP fun entry => 0 < entry.pid := by
  rw [getTopProcessInfosWith_drain, ← pushEntries_card maxPQ]
  constructor
  · rintro ⟨infos, selected, length⟩
    obtain ⟨taken, drained, mapped⟩ := Option.map_eq_some_iff.mp selected
    have rounds := (maxPQ.drain_split _ _ taken drained).1
    have enough := (maxPQ.drain_isSome _ _).mp (Option.isSome_of_eq_some drained)
    have same : taken.length = size := by
      rw [← length, ← mapped, List.length_map]
    omega
  · rintro ⟨rounds, enough⟩
    rw [rounds]
    obtain ⟨taken, drained⟩ := Option.isSome_iff_exists.mp ((maxPQ.drain_isSome size _).mpr enough)
    exact ⟨_, by rw [drained, Option.map_some], by
      rw [List.length_map, (maxPQ.drain_split _ _ taken drained).1]⟩

end Template

theorem updates_sized (sys : Sys) (pid : Int) (scans : List Scan) :
    Sized (updates sys pid scans) :=
  Loop.run_invariant Sized sized_initial (fun ref scan _ => processTreeInit_sized sys pid scan ref) scans

def reportable (ref : TreeRef) : Nat :=
  (visibleEntries ref).countP fun entry => 0 < entry.pid

theorem getTopProcessInfos_length (queue : PriorityQueue) (type : TopInfoType) (count : Int)
    {ref : TreeRef} (sized : Sized ref) (size : Nat) :
    (∃ infos, getTopProcessInfos queue type count ref = some infos ∧ infos.length = size) ↔
      (min ref.pTreeSize count).toNat = size ∧ size ≤ reportable ref := by
  by_cases empty : ref.pTreeSize ≤ 0
  · have none : visibleEntries ref = [] := by
      rw [Sized] at sized
      exact List.length_eq_zero_iff.mp (by omega)
    simp only [getTopProcessInfos, empty, if_true, Option.some.injEq, exists_eq_left',
      List.length_nil, reportable, none, List.countP_nil]
    omega
  · simp only [getTopProcessInfos, empty, if_false]
    rw [sized]
    cases type with
    | cpu => exact getTopProcessInfosWith_length _ _ count size
    | ram => exact getTopProcessInfosWith_length _ _ count size

/-- The selection is safe and complete if and only if it asks for no more processes than
there are, or no entry is left out of the queue. -/
theorem getTopProcessInfos_complete_iff (queue : PriorityQueue) (sys : Sys) (pid : Int)
    (scans : List Scan) (type : TopInfoType) (count : Int) :
    (∃ infos, getTopProcessInfos queue type count (updates sys pid scans) = some infos ∧
      infos.length = (min (max count 0) (reportable (updates sys pid scans))).toNat) ↔
    (count ≤ reportable (updates sys pid scans) ∨
      ∀ entry ∈ visibleEntries (updates sys pid scans), 0 < entry.pid) := by
  have sized := updates_sized sys pid scans
  generalize updates sys pid scans = ref at *
  rw [getTopProcessInfos_length queue type count sized]
  have most : reportable ref ≤ (visibleEntries ref).length := List.countP_le_length
  have allPositive : reportable ref = (visibleEntries ref).length ↔
      ∀ entry ∈ visibleEntries ref, 0 < entry.pid := by
    rw [reportable, List.countP_eq_length]
    simp
  rw [← allPositive]
  rw [Sized] at sized
  omega

theorem getTopProcessInfos_loneProcess :
    ((visibleEntries
      (updates sampleSys allProcesses [sampleScan "cpu 1 2 3 4 5 6 7 8" [initProcess]])).length,
      reportable
        (updates sampleSys allProcesses [sampleScan "cpu 1 2 3 4 5 6 7 8" [initProcess]])) =
      (2, 1) ∧
    ∀ (queue : PriorityQueue) type, getTopProcessInfos queue type 5
      (updates sampleSys allProcesses [sampleScan "cpu 1 2 3 4 5 6 7 8" [initProcess]]) = none := by
  have sized := updates_sized sampleSys allProcesses [sampleScan "cpu 1 2 3 4 5 6 7 8" [initProcess]]
  have sizes : ((visibleEntries
      (updates sampleSys allProcesses [sampleScan "cpu 1 2 3 4 5 6 7 8" [initProcess]])).length,
      reportable
        (updates sampleSys allProcesses [sampleScan "cpu 1 2 3 4 5 6 7 8" [initProcess]])) =
      (2, 1) := by decide +kernel
  refine ⟨sizes, ?_⟩
  intro queue type
  generalize updates sampleSys allProcesses [sampleScan "cpu 1 2 3 4 5 6 7 8" [initProcess]] = ref at *
  obtain ⟨entries, positive⟩ := Prod.mk.inj sizes
  by_contra selected
  obtain ⟨infos, found⟩ := Option.ne_none_iff_exists'.mp selected
  have rounds := (getTopProcessInfos_length queue type 5 sized infos.length).mp ⟨infos, found, rfl⟩
  rw [Sized] at sized
  omega

/-- After every update the size and the entries are those of the last scan alone. -/
theorem updates_snapshot (sys : Sys) (pid : Int) (scans : List Scan) (scan : Scan) :
    let result := (processTreeInit sys pid scan (updates sys pid scans)).2
    let after := updates sys pid (scans ++ [scan])
    0 ≤ after.pTreeSize ∧ result ≠ 0 ∧
    (0 < result → after.pTreeSize = result ∧ ∃ tree records, after.ppTree = some tree ∧
      (tree.entries.length : Int) = result ∧ initprocesstreeSysdep sys scan pid = some records ∧
      tree.entries.map measured =
        records ++ (virtualPids pid (records.map recordLink)).map virtualRecord) ∧
    (result < 0 → after.pTreeSize = 0 ∧ ∀ (queue : PriorityQueue) type count,
      getTopProcessInfos queue type count after = some []) := by
  intro result after
  have afterEq : after = (processTreeInit sys pid scan (updates sys pid scans)).1 := by
    simp only [after, updates, Loop.run_concat, update]
  rw [afterEq]
  rcases processTreeInit_cases sys pid scan (updates sys pid scans) with ⟨_, failed, size, _⟩ |
    ⟨records, tree, read, nonempty, _, treeEq, fixed, size, count⟩
  · refine ⟨by omega, by omega, fun positive => by omega, fun _ => ⟨size, ?_⟩⟩
    intro queue type count
    simp [getTopProcessInfos, size]
  · have viewed := fixed_measured fixed
    have positive : 0 < tree.entries.length := by
      rw [fixed_length fixed]
      exact snapshot_nonempty _ _ _ _ _ nonempty
    exact ⟨by omega, by omega, fun _ => ⟨by omega, tree, records, treeEq, count.symm, read, viewed⟩,
      fun negative => by omega⟩

end SimpleProcessMonitor
