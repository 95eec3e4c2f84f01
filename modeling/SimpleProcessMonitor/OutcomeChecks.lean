import Mathlib.Data.Finset.Card
import Mathlib.Data.Finset.Dedup
import SimpleProcessMonitor.RootChecks

/-!
How the build loop of `ProcessTree_init` ends: the number of its rounds, the entries it
adds, and whether it found a root.
-/

namespace SimpleProcessMonitor

open Forest Loop Relation

/-- The ppid values that some process with a parent has and no process has as its pid. -/
def absentParents (records : List ProcessRecord) : Finset Int :=
  ((records.filter fun record => record.pid ≠ record.ppid ∧ record.ppid ≠ -1 ∧
    ∀ other ∈ records, other.pid ≠ record.ppid).map (·.ppid)).toFinset

theorem mem_absentParents (records : List ProcessRecord) (pid : Int) :
    pid ∈ absentParents records ↔ pid ∈ missingParents (records.map recordLink) := by
  rw [mem_missingParents]
  simp only [absentParents, List.mem_toFinset, List.mem_map, List.mem_filter, decide_eq_true_eq,
    orphan]
  constructor
  · rintro ⟨record, ⟨member, child, parented, absent⟩, same⟩
    refine ⟨recordLink record, ⟨record, member, rfl⟩, ⟨child, parented, ?_⟩, same⟩
    rintro ⟨_, ⟨other, otherMem, rfl⟩, pidEq⟩
    exact absent other otherMem pidEq
  · rintro ⟨_, ⟨record, member, rfl⟩, ⟨child, parented, absent⟩, same⟩
    refine ⟨record, ⟨member, child, parented, ?_⟩, same⟩
    intro other otherMem pidEq
    exact absent ⟨_, ⟨other, otherMem, rfl⟩, pidEq⟩

theorem absentParents_card (records : List ProcessRecord) :
    (absentParents records).card = (missingParents (records.map recordLink)).length := by
  have same : absentParents records = (missingParents (records.map recordLink)).toFinset := by
    ext pid
    rw [mem_absentParents, List.mem_toFinset]
  rw [same, List.toFinset_card_of_nodup (nodup_missingParents _)]

section Rounds

variable (info : FixedSystemInfo) (time : ℚ) (ref : TreeRef) (records : List ProcessRecord)

def beforeBuild : BuildState where
  ledger := ref.ledger.alloc.2
  block := ref.ledger.alloc.1
  pt := scannedEntries records time
  root := -1

theorem snapshot_size :
    (snapshot info allProcesses time ref records).pt.length =
      records.length + (absentParents records).card := by
  rw [snapshot_length, virtualPids, if_pos rfl, absentParents_card]

theorem snapshot_exits :
    ExitsAfter (fun state => state.pt.length) (buildStep (buildInput info allProcesses time ref))
      (beforeBuild time ref records) (records.length + (absentParents records).card)
      (snapshot info allProcesses time ref records) := by
  have finished : buildLoop (buildInput info allProcesses time ref)
      (2 * (beforeBuild time ref records).pt.length + 1) 0 (beforeBuild time ref records) =
        some (snapshot info allProcesses time ref records) :=
    (Option.some_get (buildLoop_isSome _ _)).symm
  obtain ⟨count, exits⟩ := forBelow_exits (fun earlier passed => absurd passed (Nat.not_lt_zero _))
    finished
  have countEq := exits.count_eq (fun state index => by rw [buildStep_length]; omega)
  rw [snapshot_size] at countEq
  exact countEq ▸ exits

theorem rounds_length {index : Nat} (past : records.length ≤ index)
    (within : index ≤ records.length + (absentParents records).card) :
    (rounds (buildStep (buildInput info allProcesses time ref)) (beforeBuild time ref records)
      index).pt.length = records.length + (absentParents records).card := by
  have extended := (snapshot_exits info time ref records).rule
    (Extended (buildInput info allProcesses time ref) (scannedEntries records time))
    (extended_initial _ (beforeBuild time ref records)) (fun _ _ inside => Extended.step inside) within
  have lengths := congrArg List.length extended.cores
  rw [scannedEntries_link, missingBefore_of_le _ (by simpa using past)] at lengths
  simpa [buildInput, scannedEntries_length, absentParents_card] using lengths

theorem snapshot_completed :
    ExitsAfter (fun state => state.pt.length) (buildStep (buildInput info allProcesses time ref))
      (beforeBuild time ref records) (records.length + (absentParents records).card)
      (snapshot info allProcesses time ref records) ∧
    (snapshot info allProcesses time ref records).pt.length =
      records.length + (absentParents records).card ∧
    ((snapshot info allProcesses time ref records).pt.take records.length).map measured = records ∧
    (∃ parents : List Int, parents.Nodup ∧ (∀ pid, pid ∈ parents ↔ pid ∈ absentParents records) ∧
      ((snapshot info allProcesses time ref records).pt.drop records.length).map measured =
        parents.map virtualRecord) ∧
    ∀ index, records.length ≤ index → index ≤ records.length + (absentParents records).card →
      (rounds (buildStep (buildInput info allProcesses time ref)) (beforeBuild time ref records)
        index).pt.length = records.length + (absentParents records).card := by
  have views := snapshot_measured info allProcesses time ref records
  rw [virtualPids, if_pos rfl] at views
  refine ⟨snapshot_exits info time ref records, snapshot_size info time ref records, ?_, ?_, ?_⟩
  · rw [List.map_take, views, List.take_left]
  · refine ⟨missingParents (records.map recordLink), nodup_missingParents _, ?_, ?_⟩
    · exact fun pid => (mem_absentParents records pid).symm
    · rw [List.map_drop, views, List.drop_left]
  · exact fun index past within => rounds_length info time ref records past within

end Rounds

/-! Whether there is a root. -/

/-- No process is its own parent, and every parent is in the snapshot. -/
def Rootless (records : List ProcessRecord) : Prop :=
  ∀ record ∈ records, ¬(record.pid = record.ppid ∨ record.ppid = -1) ∧
    ∃ parent ∈ records, parent.pid = record.ppid

theorem rootless_iff (records : List ProcessRecord) :
    Rootless records ↔ rootPids (records.map recordLink) = [] := by
  have noOwn : (∀ record ∈ records, ¬(record.pid = record.ppid ∨ record.ppid = -1)) ↔
      ((records.map recordLink).filter rootLink).map Prod.fst = [] := by
    simp [List.filter_eq_nil_iff, rootLink, recordLink]
  rw [rootPids, List.append_eq_nil_iff, ← noOwn, List.eq_nil_iff_forall_not_mem]
  constructor
  · intro rootless
    refine ⟨fun record member => (rootless record member).1, ?_⟩
    intro pid missing
    obtain ⟨_, member, _, same⟩ := mem_missingParents.mp missing
    obtain ⟨record, scanned, rfl⟩ := List.mem_map.mp member
    obtain ⟨parent, parentMem, pidEq⟩ := (rootless record scanned).2
    refine missingParents_notMem missing ?_
    rw [List.map_map]
    exact List.mem_map.mpr ⟨parent, parentMem, pidEq.trans same⟩
  · rintro ⟨childs, noneMissing⟩ record member
    have child := childs record member
    refine ⟨child, ?_⟩
    by_contra absent
    simp only [not_or] at child
    refine noneMissing record.ppid ((mem_absentParents records _).mp ?_)
    simp only [absentParents, List.mem_toFinset, List.mem_map, List.mem_filter, decide_eq_true_eq]
    exact ⟨record, ⟨member, child.1, child.2, fun other otherMem same => absent ⟨other, otherMem, same⟩⟩, rfl⟩

theorem not_rootless {records : List ProcessRecord} (nonempty : records ≠ [])
    (acyclic : ∀ pid, ¬TransGen (ParentLink (records.map recordLink)) pid pid) :
    ¬Rootless records := by
  intro rootless
  let above (parent child : Fin records.length) : Prop :=
    ParentLink (records.map recordLink) records[parent].pid records[child].pid
  have noCycle : ∀ node, ¬TransGen above node node := by
    intro node cycle
    refine acyclic records[node].pid ?_
    exact TransGen.lift (fun node : Fin records.length => records[node].pid)
      (fun _ _ edge => edge) _ _ cycle
  obtain ⟨source, _, top⟩ := exists_source noCycle ⟨0, List.length_pos_iff.mpr nonempty⟩
  obtain ⟨child, parent, parentMem, pidEq⟩ := rootless records[source] (List.getElem_mem _)
  obtain ⟨index, inside, found⟩ := List.mem_iff_getElem.mp parentMem
  simp only [not_or] at child
  refine top ⟨index, inside⟩ ⟨?_, ?_, ?_⟩
  · refine List.mem_map.mpr ⟨records[source], List.getElem_mem _, ?_⟩
    simp [recordLink, found, pidEq]
  · simpa [found, pidEq] using child.1
  · simpa [found, pidEq] using child.2

theorem initRecords_outcome (info : FixedSystemInfo) (time : ℚ) (ref : TreeRef)
    (records : List ProcessRecord) (nonempty : records ≠ []) :
    ((snapshot info allProcesses time ref records).root = -1 ↔ Rootless records) ∧
    (Rootless records → (initRecords info allProcesses time ref records).2 = -1 ∧
      (initRecords info allProcesses time ref records).1.ppTree = none ∧
      (initRecords info allProcesses time ref records).1.pTreeSize = 0) ∧
    (¬Rootless records → 0 < (initRecords info allProcesses time ref records).2 ∧
      (initRecords info allProcesses time ref records).2 =
        (initRecords info allProcesses time ref records).1.pTreeSize ∧
      (initRecords info allProcesses time ref records).2 =
        records.length + (absentParents records).card) ∧
    ((∀ pid, ¬TransGen (ParentLink (records.map recordLink)) pid pid) →
      0 < (initRecords info allProcesses time ref records).2) := by
  have unrooted : (snapshot info allProcesses time ref records).root = -1 ↔ Rootless records := by
    rw [rootless_iff]
    exact snapshot_unrooted info time ref records
  have accepted : ¬Rootless records → 0 < (initRecords info allProcesses time ref records).2 ∧
      (initRecords info allProcesses time ref records).2 =
        (initRecords info allProcesses time ref records).1.pTreeSize ∧
      (initRecords info allProcesses time ref records).2 =
        records.length + (absentParents records).card := by
    intro rooted
    have size := snapshot_size info time ref records
    have positive := snapshot_nonempty info allProcesses time ref records nonempty
    rw [initRecords_rooted info time ref records nonempty (fun unset => rooted (unrooted.mp unset))]
    exact ⟨Int.natCast_pos.mpr positive, rfl, by simp only [size, Nat.cast_add]⟩
  refine ⟨unrooted, ?_, accepted, fun acyclic => (accepted (not_rootless nonempty acyclic)).1⟩
  intro rootless
  simp [initRecords, nonempty, unrooted.mpr rootless, delete, linkedRef]

theorem initRecords_outcome_sample :
    0 < (initRecords ⟨4096, 100, 4⟩ allProcesses 50 {} twoMissingParents).2 :=
  (initRecords_outcome ⟨4096, 100, 4⟩ 50 {} twoMissingParents (by decide)).2.2.2
    twoMissingParents_acyclic

end SimpleProcessMonitor
