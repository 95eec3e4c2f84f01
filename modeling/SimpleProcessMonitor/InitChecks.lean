import SimpleProcessMonitor.FillChecks
import SimpleProcessMonitor.ScanChecks

/-!
The exits of `ProcessTree_init`: every call ends in one of these ways.
-/

namespace SimpleProcessMonitor

section Exits

variable (info : FixedSystemInfo) (pid : Int) (time : ℚ) (ref : TreeRef)
  (records : List ProcessRecord)

theorem initRecords_rooted (nonempty : records ≠ [])
    (rooted : (snapshot info allProcesses time ref records).root ≠ -1) :
    initRecords info allProcesses time ref records =
      ({ linkedRef ref (snapshot info allProcesses time ref records) with
        ppTree := some ⟨(snapshot info allProcesses time ref records).block,
          (fillTree (snapshot info allProcesses time ref records).pt
            (snapshot info allProcesses time ref records).root.toNat).pt⟩ },
        ((snapshot info allProcesses time ref records).pt.length : Int)) := by
  simp [initRecords, nonempty, rooted, linkedRef]

/-- A call whose scan worked finds no process, finds no root, or leaves the array of the
snapshot, whose totals the fill may have written. -/
theorem initRecords_cases :
    (records = [] ∧ initRecords info pid time ref records = (failScan ref
      { ppTree := some ⟨ref.ledger.alloc.1, []⟩, pTreeSize := 0, ledger := ref.ledger.alloc.2 },
      -1)) ∨
    (records ≠ [] ∧ pid = allProcesses ∧ (snapshot info pid time ref records).root = -1 ∧
      initRecords info pid time ref records =
        (delete (linkedRef ref (snapshot info pid time ref records)), -1)) ∨
    (records ≠ [] ∧ (pid = allProcesses → (snapshot info pid time ref records).root ≠ -1) ∧
      ∃ entries : Entries,
      entries.map fixedPart = (snapshot info pid time ref records).pt.map fixedPart ∧
      initRecords info pid time ref records =
        ({ linkedRef ref (snapshot info pid time ref records) with
          ppTree := some ⟨(snapshot info pid time ref records).block, entries⟩ },
          ((snapshot info pid time ref records).pt.length : Int))) := by
  by_cases none : records = []
  · exact Or.inl ⟨none, by simp [initRecords, none]⟩
  · right
    by_cases all : pid = allProcesses
    · subst pid
      by_cases rooted : (snapshot info allProcesses time ref records).root = -1
      · exact Or.inl ⟨none, rfl, rooted, by simp [initRecords, none, rooted]⟩
      · exact Or.inr ⟨none, fun _ => rooted, _, fillTree_fixed _ _,
          initRecords_rooted info time ref records none rooted⟩
    · exact Or.inr ⟨none, fun same => absurd same all, _, rfl,
        by simp [initRecords, none, all, linkedRef]⟩

theorem snapshot_nonempty (nonempty : records ≠ []) :
    0 < (snapshot info pid time ref records).pt.length := by
  have recordsPositive : 0 < records.length := List.length_pos_iff.mpr nonempty
  rw [snapshot_length]
  omega

theorem initRecords_success
    (success : 0 < (initRecords info allProcesses time ref records).2) :
    records ≠ [] ∧ ∃ root < (snapshot info allProcesses time ref records).pt.length,
      (snapshot info allProcesses time ref records).root = root ∧
      selfParented (entryAt (snapshot info allProcesses time ref records).pt root) ∧
      (∀ index, root < index → index < (snapshot info allProcesses time ref records).pt.length →
        ¬selfParented (entryAt (snapshot info allProcesses time ref records).pt index)) ∧
      (initRecords info allProcesses time ref records).1.ppTree =
        some ⟨(snapshot info allProcesses time ref records).block,
          (fillTree (snapshot info allProcesses time ref records).pt root).pt⟩ := by
  have nonempty : records ≠ [] := by
    intro none
    simp [initRecords, none] at success
  rcases snapshot_root info time ref records with ⟨unset, _⟩ | ⟨root, inside, rootEq, own, last⟩
  · simp [initRecords, nonempty, unset] at success
  · refine ⟨nonempty, root, inside, rootEq, own, last, ?_⟩
    rw [initRecords_rooted info time ref records nonempty (by omega), rootEq, Int.toNat_natCast]

end Exits

theorem fixed_length {info : FixedSystemInfo} {pid : Int} {time : ℚ} {ref : TreeRef}
    {records : List ProcessRecord} {entries : Entries}
    (fixed : entries.map fixedPart = (snapshot info pid time ref records).pt.map fixedPart) :
    entries.length = (snapshot info pid time ref records).pt.length := by
  simpa using congrArg List.length fixed

theorem fixed_measured {info : FixedSystemInfo} {pid : Int} {time : ℚ} {ref : TreeRef}
    {records : List ProcessRecord} {entries : Entries}
    (fixed : entries.map fixedPart = (snapshot info pid time ref records).pt.map fixedPart) :
    entries.map measured =
      records ++ (virtualPids pid (records.map recordLink)).map virtualRecord := by
  have views := congrArg (List.map measured) fixed
  rw [List.map_map, List.map_map] at views
  exact Eq.trans views (snapshot_measured info pid time ref records)

theorem processTreeInit_cases (sys : Sys) (pid : Int) (scan : Scan) (ref : TreeRef) :
    ((∀ records, initprocesstreeSysdep sys scan pid = some records → records ≠ [] →
        pid = allProcesses ∧ (snapshot sys.info pid
          (getNowSingleCoreCpuTime sys.info scan.procStat scan.stack) ref records).root = -1) ∧
      (processTreeInit sys pid scan ref).2 = -1 ∧ (processTreeInit sys pid scan ref).1.pTreeSize = 0 ∧
      visibleEntries (processTreeInit sys pid scan ref).1 = []) ∨
    ∃ records tree, initprocesstreeSysdep sys scan pid = some records ∧ records ≠ [] ∧
      (pid = allProcesses → (snapshot sys.info pid
        (getNowSingleCoreCpuTime sys.info scan.procStat scan.stack) ref records).root ≠ -1) ∧
      (processTreeInit sys pid scan ref).1.ppTree = some tree ∧
      tree.entries.map fixedPart = (snapshot sys.info pid
        (getNowSingleCoreCpuTime sys.info scan.procStat scan.stack) ref records).pt.map fixedPart ∧
      (processTreeInit sys pid scan ref).1.pTreeSize = tree.entries.length ∧
      (processTreeInit sys pid scan ref).2 = tree.entries.length := by
  cases read : initprocesstreeSysdep sys scan pid with
  | none =>
      left
      refine ⟨by simp, ?_⟩
      simp only [processTreeInit, read, failScan, delete]
      split <;> simp [visibleEntries]
  | some records =>
      simp only [processTreeInit, read]
      generalize getNowSingleCoreCpuTime sys.info scan.procStat scan.stack = now
      rcases initRecords_cases sys.info pid now ref records with ⟨none, exit⟩ |
        ⟨_, all, unset, exit⟩ | ⟨nonempty, rooted, entries, fixed, exit⟩
      · left
        refine ⟨fun _ same nonempty => absurd (Option.some.inj same ▸ none) nonempty, ?_⟩
        simp only [exit, failScan, delete]
        split <;> simp [visibleEntries]
      · left
        refine ⟨fun _ same _ => ⟨all, Option.some.inj same ▸ unset⟩, ?_⟩
        simp [exit, delete, linkedRef, visibleEntries]
      · right
        have lengths := fixed_length fixed
        exact ⟨records, ⟨_, entries⟩, rfl, nonempty, rooted, by rw [exit], fixed,
          by simp [exit, linkedRef, lengths], by simp [exit, lengths]⟩

def Sized (ref : TreeRef) : Prop :=
  ref.pTreeSize = (visibleEntries ref).length

theorem processTreeInit_sized (sys : Sys) (pid : Int) (scan : Scan) (ref : TreeRef) :
    Sized (processTreeInit sys pid scan ref).1 := by
  rcases processTreeInit_cases sys pid scan ref with ⟨_, _, size, none⟩ |
    ⟨_, tree, _, _, _, treeEq, _, size, _⟩
  · simp [Sized, size, none]
  · simp [Sized, size, visibleEntries, treeEq]

theorem sized_initial : Sized {} := by
  simp [Sized, visibleEntries]

end SimpleProcessMonitor
