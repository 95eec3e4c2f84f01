import SimpleProcessMonitor.WrapperChecks

/-! Which entries `getTopProcessInfos` selects, and what it returns of each. -/

namespace SimpleProcessMonitor

open CString Selection

def candidates (pTree : Entries) : List Nat :=
  (List.range pTree.length).filter fun index => 0 < (entryAt pTree index).pid

theorem candidates_nodup (pTree : Entries) : (candidates pTree).Nodup :=
  List.nodup_range.filter _

theorem candidates_length (pTree : Entries) :
    (candidates pTree).length = pTree.countP fun entry => 0 < entry.pid := by
  rw [← countP_range pTree, candidates, ← List.countP_eq_length_filter]

section Template

variable {κ : Type} [LinearOrder κ] {key : Nat → κ} (maxPQ : MaxQueue key) (pTree : Entries)

theorem getTopProcessInfosWith_greatest {count : Nat}
    (enough : count ≤ pTree.countP fun entry => 0 < entry.pid) :
    ∃ taken, Greatest key (candidates pTree) count taken ∧
      getTopProcessInfosWith maxPQ pTree pTree.length count =
        some (taken.map fun index => processInfo (entryAt pTree index)) := by
  have contents := pushEntries_contents maxPQ pTree pTree.length
  have few : count ≤ (candidates pTree).length := by rwa [candidates_length]
  have rounds : (min (pTree.length : Int) count).toNat = count := by
    have most : (pTree.countP fun entry => 0 < entry.pid) ≤ pTree.length := List.countP_le_length
    omega
  obtain ⟨taken, drained, greatest⟩ :=
    maxPQ.drain_greatest (candidates_nodup pTree) contents few
  refine ⟨taken, greatest, ?_⟩
  rw [getTopProcessInfosWith_drain, rounds, drained, Option.map_some]

end Template

theorem getTopProcessInfos_top (queue : PriorityQueue) (type : TopInfoType) (ref : TreeRef)
    (sized : Sized ref) (count : Nat) (enough : count ≤ reportable ref) :
    ∃ taken,
      (match type with
        | .cpu => Greatest (fun index => (entryAt (visibleEntries ref) index).cpu.usage.self)
            (candidates (visibleEntries ref)) count taken
        | .ram => Greatest (fun index => (entryAt (visibleEntries ref) index).memory.usage)
            (candidates (visibleEntries ref)) count taken) ∧
      getTopProcessInfos queue type count ref = some (taken.map fun index =>
        { pid := (entryAt (visibleEntries ref) index).pid
          threadNum := (entryAt (visibleEntries ref) index).threads.self
          cpuUsage := (entryAt (visibleEntries ref) index).cpu.usage.self
          ramUsage := (entryAt (visibleEntries ref) index).memory.usage
          cmdline := (entryAt (visibleEntries ref) index).cmdline.getD (bytes "(null)") }) := by
  rw [Sized] at sized
  by_cases empty : ref.pTreeSize ≤ 0
  · have none : visibleEntries ref = [] := List.length_eq_zero_iff.mp (by omega)
    have zero : count = 0 := by simpa [reportable, none] using enough
    subst zero
    refine ⟨[], ?_, by simp [getTopProcessInfos, empty]⟩
    cases type <;> constructor <;> simp
  · simp only [getTopProcessInfos, empty, if_false]
    rw [sized]
    cases type with
    | cpu =>
        obtain ⟨taken, greatest, selected⟩ := getTopProcessInfosWith_greatest
          (queue (cpuKey (visibleEntries ref))) (visibleEntries ref) enough
        exact ⟨taken, greatest, selected⟩
    | ram =>
        obtain ⟨taken, greatest, selected⟩ := getTopProcessInfosWith_greatest
          (queue (ramKey (visibleEntries ref))) (visibleEntries ref) enough
        exact ⟨taken, greatest, selected⟩

def threeProcesses : Scan :=
  sampleScan "cpu 1 2 3 4 5 6 7 8" [initProcess,
    sampleProcess "/proc/4"
      "4 (sh) S 1 1 1 0 -1 4 1 2 3 4 12 34 5 6 20 0 1 0 25 90 5 0 1 1 0 0 0 0 6 4 1 0 0 0 17 0",
    sampleProcess "/proc/6"
      "6 (sh) S 1 1 1 0 -1 4 1 2 3 4 12 34 5 6 20 0 1 0 25 90 3 0 1 1 0 0 0 0 6 4 1 0 0 0 17 0"]

def threeEntries : TreeRef := updates sampleSys allProcesses [threeProcesses]

/-- The last one is the virtual parent of process 1. -/
theorem threeEntries_view :
    (visibleEntries threeEntries).map (fun entry => (entry.pid, entry.memory.usage)) =
      [(1, 2 * 4096), (4, 5 * 4096), (6, 3 * 4096), (0, 0)] := by decide +kernel

theorem threeEntries_values :
    candidates (visibleEntries threeEntries) = [0, 1, 2] ∧
      (entryAt (visibleEntries threeEntries) 0).memory.usage = 2 * 4096 ∧
      (entryAt (visibleEntries threeEntries) 1).memory.usage = 5 * 4096 ∧
      (entryAt (visibleEntries threeEntries) 2).memory.usage = 3 * 4096 ∧
      (entryAt (visibleEntries threeEntries) 1).pid = 4 ∧
      (entryAt (visibleEntries threeEntries) 2).pid = 6 := by
  have views := threeEntries_view
  generalize visibleEntries threeEntries = pt at views ⊢
  obtain ⟨first, second, third, virtual, rfl⟩ : ∃ first second third virtual,
      pt = [first, second, third, virtual] :=
    List.length_eq_four.mp (by simpa using congrArg List.length views)
  simp only [List.map_cons, List.map_nil, List.cons.injEq, Prod.mk.injEq, and_true] at views
  obtain ⟨one, two, three, zero⟩ := views
  simp [candidates, entryAt, List.range_succ, one, two, three, zero]

/-- Two of three processes, by their memory. -/
theorem getTopProcessInfos_top_sample :
    ∃ infos, getTopProcessInfos (fun key => preferring key 0) .ram (2 : Nat) threeEntries =
        some infos ∧
      infos.map (fun info => (info.pid, info.ramUsage)) = [(4, 5 * 4096), (6, 3 * 4096)] := by
  obtain ⟨candidatesEq, one, two, three, twoPid, threePid⟩ := threeEntries_values
  have enough : 2 ≤ reportable threeEntries := by
    rw [reportable, ← candidates_length, candidatesEq]
    decide
  obtain ⟨taken, greatest, selected⟩ := getTopProcessInfos_top (fun key => preferring key 0) .ram
    threeEntries (updates_sized _ _ _) 2 enough
  have other : Greatest (fun index => (entryAt (visibleEntries threeEntries) index).memory.usage)
      (candidates (visibleEntries threeEntries)) 2 [1, 2] := by
    rw [candidatesEq]
    constructor <;> simp [one, two, three]
  have keys : ((candidates (visibleEntries threeEntries)).map fun index =>
      (entryAt (visibleEntries threeEntries) index).memory.usage).Nodup := by
    simp [candidatesEq, one, two, three]
  obtain rfl := greatest.unique keys other
  exact ⟨_, selected, by simp [two, three, twoPid, threePid]⟩

end SimpleProcessMonitor
