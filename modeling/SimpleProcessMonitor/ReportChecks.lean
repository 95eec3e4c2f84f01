import SimpleProcessMonitor.WrapperChecks

/-!
Whether the selection reports only processes that the scan has read: a virtual entry with a
positive pid takes part in it like any other.
-/

namespace SimpleProcessMonitor

open Selection

/-- Under every queue the `rounds` greatest positive entries are real if and only if each
positive entry that is not has as many real ones above it. -/
theorem drain_real_iff {κ : Type} [LinearOrder κ] (key : ProcessTreeT → κ) (pt : Entries)
    (real : ProcessTreeT → Bool) (rounds : Nat)
    (few : rounds ≤ pt.countP fun entry => 0 < entry.pid) :
    (∀ (queue : PriorityQueue) taken,
      (queue (fun index => key (entryAt pt index))).drain rounds
        (pushEntries (queue fun index => key (entryAt pt index)) pt pt.length) = some taken →
      ∀ index ∈ taken, real (entryAt pt index) = true) ↔
    ∀ entry ∈ pt, real entry = false → 0 < entry.pid →
      rounds ≤ pt.countP fun other => (real other && key entry < key other) && 0 < other.pid := by
  constructor
  · intro onlyReal entry member virtual positive
    obtain ⟨index, inside, found⟩ := mem_iff_entryAt.mp member
    let queue : PriorityQueue := fun key => preferring key index
    let maxPQ := queue fun index => key (entryAt pt index)
    have enough : rounds ≤ (maxPQ.contents (pushEntries maxPQ pt pt.length)).card := by
      rw [pushEntries_card]
      exact few
    obtain ⟨taken, drained⟩ := Option.isSome_iff_exists.mp ((maxPQ.drain_isSome rounds _).mpr enough)
    have allReal := onlyReal queue taken drained
    have waiting : index ∈ maxPQ.contents (pushEntries maxPQ pt pt.length) := by
      rw [pushEntries_contents, Multiset.mem_coe, List.mem_filter]
      exact ⟨List.mem_range.mpr inside, by simpa [found] using positive⟩
    have notTaken : index ∉ taken := by
      intro known
      have real := allReal index known
      rw [found, virtual] at real
      cases real
    have above := (preferring_drain drained waiting).resolve_left notTaken
    have counted := maxPQ.drain_countP drained
      (fun other => (real (entryAt pt other) && key entry < key (entryAt pt other)) = true) (by
        intro other known
        rw [allReal other known, ← found]
        simpa using above other known)
    rwa [pushEntries_countP maxPQ pt fun other => real other && key entry < key other] at counted
  · intro bounded queue taken drained index known
    let maxPQ := queue fun index => key (entryAt pt index)
    by_contra notReal
    have waiting := maxPQ.drain_mem drained known
    rw [pushEntries_contents, Multiset.mem_coe, List.mem_filter, decide_eq_true_eq] at waiting
    obtain ⟨inRange, positive⟩ := waiting
    have inside : index < pt.length := List.mem_range.mp inRange
    have fewer := maxPQ.above_lt drained known
    have counted := pushEntries_countP maxPQ pt fun other => key (entryAt pt index) < key other
    simp only [decide_eq_true_eq] at counted
    rw [counted] at fewer
    have many := bounded _ (entryAt_mem inside) (by simpa using notReal) positive
    have monotone : (pt.countP fun other =>
        (real other && key (entryAt pt index) < key other) && 0 < other.pid) ≤
        pt.countP fun other => (key (entryAt pt index) < key other) && 0 < other.pid := by
      apply List.countP_mono_left
      intro other _ both
      simp only [Bool.and_eq_true] at both ⊢
      exact ⟨both.1.2, both.2⟩
    omega

/-- The result describes the process that was read into this record. -/
def Reports (record : ProcessRecord) (info : ProcessOrThreadInfo) : Prop :=
  info.pid = record.pid ∧ info.threadNum = record.threadsSelf ∧
    info.ramUsage = record.memoryUsage ∧
    info.cmdline = record.cmdline.getD (CString.bytes "(null)")

def ranksBelow (type : TopInfoType) (first second : ProcessTreeT) : Bool :=
  match type with
  | .cpu => first.cpu.usage.self < second.cpu.usage.self
  | .ram => first.memory.usage < second.memory.usage

theorem initRecords_visible {info : FixedSystemInfo} {time : ℚ} {ref : TreeRef}
    {records : List ProcessRecord}
    (success : 0 < (initRecords info allProcesses time ref records).2) :
    Sized (initRecords info allProcesses time ref records).1 ∧
    0 < (initRecords info allProcesses time ref records).1.pTreeSize ∧
    (visibleEntries (initRecords info allProcesses time ref records).1).map measured =
      records ++ (missingParents (records.map recordLink)).map virtualRecord := by
  rcases initRecords_cases info allProcesses time ref records with ⟨_, exit⟩ | ⟨_, _, _, exit⟩ |
    ⟨nonempty, _, entries, fixed, exit⟩
  · simp [exit] at success
  · simp [exit] at success
  · have lengths := fixed_length fixed
    have positive := snapshot_nonempty info allProcesses time ref records nonempty
    have views := fixed_measured fixed
    rw [exit]
    exact ⟨by simp [Sized, visibleEntries, linkedRef, lengths], by simpa [linkedRef] using positive,
      views⟩

theorem real_iff_reports {records : List ProcessRecord} {pt : Entries}
    (views : pt.map measured =
      records ++ (missingParents (records.map recordLink)).map virtualRecord)
    {entry : ProcessTreeT} (member : entry ∈ pt) :
    entry.pid ∈ records.map (·.pid) ↔ ∃ record ∈ records, Reports record (processInfo entry) := by
  constructor
  · intro known
    have view := List.mem_map_of_mem (f := measured) member
    rw [views] at view
    rcases List.mem_append.mp view with real | virtual
    · exact ⟨measured entry, real, rfl, rfl, rfl, rfl⟩
    · obtain ⟨pid, missing, same⟩ := List.mem_map.mp virtual
      have pidEq : pid = entry.pid := congrArg (·.pid) same
      have absent := missingParents_notMem missing
      rw [List.map_map] at absent
      exact absurd (pidEq ▸ known) absent
  · rintro ⟨record, real, pidEq, _⟩
    exact List.mem_map.mpr ⟨record, real, pidEq.symm⟩

theorem infos_real_iff {κ : Type} [LinearOrder κ] (key : ProcessTreeT → κ)
    {records : List ProcessRecord} {pt : Entries} (views : pt.map measured =
      records ++ (missingParents (records.map recordLink)).map virtualRecord)
    {count : Int} (few : count ≤ pt.countP fun entry => 0 < entry.pid) :
    (∀ (queue : PriorityQueue) infos,
      getTopProcessInfosWith (queue fun index => key (entryAt pt index)) pt pt.length count =
        some infos → ∀ info ∈ infos, ∃ record ∈ records, Reports record info) ↔
    ∀ entry ∈ pt, entry.pid ∉ records.map (·.pid) → 0 < entry.pid →
      count ≤ pt.countP fun other =>
        (decide (other.pid ∈ records.map (·.pid)) && key entry < key other) && 0 < other.pid := by
  have most : (pt.countP fun entry => decide (0 < entry.pid)) ≤ pt.length := List.countP_le_length
  have rounds : (min (pt.length : Int) count).toNat = count.toNat := by omega
  have selection := drain_real_iff key pt (fun entry => decide (entry.pid ∈ records.map (·.pid)))
    count.toNat (by omega)
  simp only [decide_eq_true_eq, decide_eq_false_iff_not, Int.toNat_le] at selection
  rw [← selection]
  constructor
  · intro onlyReal queue taken drained index known
    have waiting := MaxQueue.drain_mem _ drained known
    rw [pushEntries_contents, Multiset.mem_coe, List.mem_filter, List.mem_range] at waiting
    rw [real_iff_reports views (entryAt_mem waiting.1)]
    have reported : processInfo (entryAt pt index) ∈
        taken.map fun index => processInfo (entryAt pt index) :=
      List.mem_map.mpr ⟨index, known, rfl⟩
    refine onlyReal queue _ ?_ _ reported
    rw [getTopProcessInfosWith_drain, rounds, drained, Option.map_some]
  · intro onlyReal queue infos selected info known
    rw [getTopProcessInfosWith_drain, rounds] at selected
    obtain ⟨taken, drained, mapped⟩ := Option.map_eq_some_iff.mp selected
    rw [← mapped] at known
    obtain ⟨index, inTaken, same⟩ := List.mem_map.mp known
    have waiting := MaxQueue.drain_mem _ drained inTaken
    rw [pushEntries_contents, Multiset.mem_coe, List.mem_filter, List.mem_range] at waiting
    rw [← same, ← real_iff_reports views (entryAt_mem waiting.1)]
    exact onlyReal queue taken drained index inTaken

/-- Only processes of the scan are reported if and only if every virtual entry with a
positive pid has `count` of them above it. -/
theorem reported_real_iff (info : FixedSystemInfo) (time : ℚ) (ref : TreeRef)
    (records : List ProcessRecord) (type : TopInfoType) (count : Int)
    (success : 0 < (initRecords info allProcesses time ref records).2)
    (few : count ≤ reportable (initRecords info allProcesses time ref records).1) :
    (∀ (queue : PriorityQueue) infos, getTopProcessInfos queue type count
      (initRecords info allProcesses time ref records).1 = some infos →
        ∀ info ∈ infos, ∃ record ∈ records, Reports record info) ↔
    ∀ entry ∈ visibleEntries (initRecords info allProcesses time ref records).1,
      entry.pid ∉ records.map (·.pid) → 0 < entry.pid →
      count ≤ (visibleEntries (initRecords info allProcesses time ref records).1).countP fun other =>
        (decide (other.pid ∈ records.map (·.pid)) && ranksBelow type entry other) &&
          0 < other.pid := by
  obtain ⟨sized, positive, views⟩ := initRecords_visible success
  generalize (initRecords info allProcesses time ref records).1 = after at *
  have nonempty : ¬after.pTreeSize ≤ 0 := by omega
  simp only [getTopProcessInfos, nonempty, if_false]
  rw [sized]
  cases type with
  | cpu => exact infos_real_iff (fun entry => entry.cpu.usage.self) views few
  | ram => exact infos_real_iff (fun entry => entry.memory.usage) views few

def exitedParent : List ProcessRecord := [{ pid := 4, ppid := 40, memoryUsage := 9 }]

theorem reported_real_iff_sample :
    (∀ (queue : PriorityQueue) infos, getTopProcessInfos queue .ram 1
      (initRecords ⟨4096, 100, 4⟩ allProcesses 50 {} exitedParent).1 = some infos →
        ∀ info ∈ infos, ∃ record ∈ exitedParent, Reports record info) ↔
    ∀ entry ∈ visibleEntries (initRecords ⟨4096, 100, 4⟩ allProcesses 50 {} exitedParent).1,
      entry.pid ∉ exitedParent.map (·.pid) → 0 < entry.pid →
      (1 : Int) ≤ (visibleEntries
        (initRecords ⟨4096, 100, 4⟩ allProcesses 50 {} exitedParent).1).countP fun other =>
          (decide (other.pid ∈ exitedParent.map (·.pid)) && ranksBelow .ram entry other) &&
            0 < other.pid :=
  reported_real_iff ⟨4096, 100, 4⟩ 50 {} exitedParent .ram 1 (by decide +kernel) (by decide +kernel)

def listQueue : PriorityQueue :=
  fun key => sortedQueue key key (fun _ _ below => below)

/-- Asked for the two entries it counts, the selection reports the missing parent. -/
theorem getTopProcessInfos_exitedParent :
    0 < (initRecords ⟨4096, 100, 4⟩ allProcesses 50 {} exitedParent).2 ∧
    2 ≤ reportable (initRecords ⟨4096, 100, 4⟩ allProcesses 50 {} exitedParent).1 ∧
    40 ∉ exitedParent.map (·.pid) ∧
    (getTopProcessInfos listQueue .ram 2
      (initRecords ⟨4096, 100, 4⟩ allProcesses 50 {} exitedParent).1).map
        (fun infos => infos.map (·.pid)) = some [4, 40] :=
  ⟨by decide +kernel, by decide +kernel, by decide, by decide +kernel⟩

end SimpleProcessMonitor
