import Mathlib.Data.Fintype.EquivFin
import SimpleProcessMonitor.TreeChecks

/-!
Which entries the fill reaches: everything, if the snapshot has a single root.
-/

namespace SimpleProcessMonitor

open Forest Relation

/-- One step along the ppid links, from the parent to the child. -/
def ParentLink (links : Links) (parent child : Int) : Prop :=
  (child, parent) ∈ links ∧ child ≠ parent ∧ parent ≠ -1

def rootLink (process : Int × Int) : Bool :=
  process.1 == process.2 || process.2 == -1

/-- The pids of the roots of a snapshot: processes without a parent, and missing parents. -/
def rootPids (links : Links) : List Int :=
  (links.filter rootLink).map Prod.fst ++ missingParents links

theorem nodup_missingParents (links : Links) : (missingParents links).Nodup := by
  unfold missingParents
  induction (links.filter (orphan links)).map Prod.snd using List.reverseRecOn with
  | nil => exact List.nodup_nil
  | append_singleton older pid ih =>
      rw [List.eraseDups_append]
      by_cases seen : pid ∈ older
      · simpa [List.removeAll, seen] using ih
      · simpa [List.removeAll, seen, List.eraseDups_cons, List.nodup_append] using
          ⟨ih, fun other member same => seen (same ▸ member)⟩

theorem rootPids_nodup {links : Links} (distinct : (links.map Prod.fst).Nodup) :
    (rootPids links).Nodup := by
  apply List.nodup_append.mpr
  have known : ∀ pid ∈ (links.filter rootLink).map Prod.fst, pid ∈ links.map Prod.fst :=
    fun pid member => (List.filter_sublist.map Prod.fst).subset member
  refine ⟨distinct.sublist (List.filter_sublist.map Prod.fst), nodup_missingParents links, ?_⟩
  intro pid member other missing same
  exact missingParents_notMem missing (same ▸ known pid member)

section Snapshot

variable (info : FixedSystemInfo) (time : ℚ) (ref : TreeRef) (records : List ProcessRecord)

theorem snapshot_links :
    (snapshot info allProcesses time ref records).pt.map link =
      records.map recordLink ++
        (missingParents (records.map recordLink)).map (fun pid => (pid, pid)) := by
  have views := congrArg (List.map recordLink) (snapshot_measured info allProcesses time ref records)
  rw [List.map_append, List.map_map, List.map_map] at views
  exact views

theorem mem_rootPids (pid : Int) :
    pid ∈ rootPids (records.map recordLink) ↔
      ∃ index < (snapshot info allProcesses time ref records).pt.length,
        selfParented (entryAt (snapshot info allProcesses time ref records).pt index) ∧
        (entryAt (snapshot info allProcesses time ref records).pt index).pid = pid := by
  have ownLink (entry : ProcessTreeT) : rootLink (link entry) = true ↔ selfParented entry := by
    simp [rootLink, link, selfParented]
  have byLink : (∃ process ∈ (snapshot info allProcesses time ref records).pt.map link,
      rootLink process = true ∧ process.1 = pid) ↔ pid ∈ rootPids (records.map recordLink) := by
    rw [snapshot_links]
    simp only [rootPids, List.mem_append, List.mem_map, List.mem_filter]
    constructor
    · rintro ⟨process, scanned | ⟨missing, member, same⟩, own, pidEq⟩
      · exact Or.inl ⟨process, ⟨scanned, own⟩, pidEq⟩
      · refine Or.inr ?_
        rw [← pidEq, ← same]
        exact member
    · rintro (⟨process, ⟨scanned, own⟩, pidEq⟩ | missing)
      · exact ⟨process, Or.inl scanned, own, pidEq⟩
      · exact ⟨(pid, pid), Or.inr ⟨pid, missing, rfl⟩, by simp [rootLink], rfl⟩
  rw [← byLink]
  constructor
  · rintro ⟨process, member, own, pidEq⟩
    obtain ⟨entry, inTree, same⟩ := List.mem_map.mp member
    obtain ⟨index, inside, found⟩ := mem_iff_entryAt.mp inTree
    subst process
    exact ⟨index, inside, found ▸ (ownLink entry).mp own, found ▸ pidEq⟩
  · rintro ⟨index, inside, own, pidEq⟩
    exact ⟨link _, List.mem_map_of_mem (entryAt_mem inside), (ownLink _).mpr own, pidEq⟩

theorem snapshot_unrooted :
    (snapshot info allProcesses time ref records).root = -1 ↔
      rootPids (records.map recordLink) = [] := by
  have roots := mem_rootPids info time ref records
  rcases snapshot_root info time ref records with ⟨unset, noRoot⟩ | ⟨last, inside, rootEq, own, _⟩
  · refine iff_of_true unset (List.eq_nil_iff_forall_not_mem.mpr ?_)
    intro pid member
    obtain ⟨index, bound, own, _⟩ := (roots pid).mp member
    exact noRoot index bound own
  · refine iff_of_false (by omega) ?_
    intro none
    have member := (roots _).mpr ⟨last, inside, own, rfl⟩
    rw [none] at member
    cases member

theorem child_link {parent child : Nat}
    (distinct : (records.map (·.pid)).Nodup)
    (member : child ∈ childrenList (snapshot info allProcesses time ref records).pt parent) :
    ParentLink (records.map recordLink)
      (entryAt (snapshot info allProcesses time ref records).pt parent).pid
      (entryAt (snapshot info allProcesses time ref records).pt child).pid := by
  have linked := snapshot_linked info time ref records distinct
  obtain ⟨_, inside, notRoot, parentEq⟩ := linked.mem_childrenList.mp member
  obtain ⟨_, _, sameParent, pidEq⟩ := linked.childParent child inside notRoot
  have atParent : (entryAt (snapshot info allProcesses time ref records).pt parent).pid =
      (entryAt (snapshot info allProcesses time ref records).pt child).ppid := by
    rw [← pidEq]
    congr 2
    omega
  have scanned : link (entryAt (snapshot info allProcesses time ref records).pt child) ∈
      (snapshot info allProcesses time ref records).pt.map link :=
    List.mem_map_of_mem (entryAt_mem inside)
  rw [snapshot_links] at scanned
  rw [atParent]
  simp only [selfParented, not_or] at notRoot
  rcases List.mem_append.mp scanned with real | grown
  · exact ⟨real, notRoot.1, notRoot.2⟩
  · obtain ⟨pid, _, same⟩ := List.mem_map.mp grown
    simp only [link, Prod.mk.injEq] at same
    exact absurd (same.1.symm.trans same.2) notRoot.1

theorem exists_root_above (distinct : (records.map (·.pid)).Nodup)
    (acyclic : ∀ pid, ¬TransGen (ParentLink (records.map recordLink)) pid pid) (index : Nat)
    (inside : index < (snapshot info allProcesses time ref records).pt.length) :
    ∃ root < (snapshot info allProcesses time ref records).pt.length,
      selfParented (entryAt (snapshot info allProcesses time ref records).pt root) ∧
      Within (childrenList (snapshot info allProcesses time ref records).pt) root index := by
  have linked := snapshot_linked info time ref records distinct
  generalize ptEq : (snapshot info allProcesses time ref records).pt = pt at *
  let above (parent child : Fin pt.length) : Prop := child.val ∈ childrenList pt parent.val
  have noCycle : ∀ node, ¬TransGen above node node := by
    intro node cycle
    apply acyclic (entryAt pt node).pid
    refine TransGen.lift (fun node : Fin pt.length => (entryAt pt node).pid) ?_ _ _ cycle
    intro parent child member
    have edge : child.val ∈ childrenList (snapshot info allProcesses time ref records).pt parent.val := by
      rw [ptEq]
      exact member
    have step := child_link info time ref records distinct edge
    rwa [ptEq] at step
  obtain ⟨source, path, top⟩ := exists_source noCycle ⟨index, inside⟩
  refine ⟨source, source.isLt, ?_, ?_⟩
  · by_contra notRoot
    obtain ⟨parent, within, parentEq, _⟩ := linked.childParent source source.isLt notRoot
    exact top ⟨parent, within⟩
      (linked.mem_childrenList.mpr ⟨within, source.isLt, notRoot, parentEq⟩)
  · refine ReflTransGen.lift (fun node : Fin pt.length => node.val) ?_ _ _ path
    exact fun _ _ edge => edge

end Snapshot

/-- Every entry was filled and has its totals. -/
def FullyFilled (pt : Entries) : Prop :=
  ∀ index < pt.length, (entryAt pt index).visited = true ∧ Aggregated pt index

/-- Every entry was filled if and only if the snapshot has one root: one process without
a parent, or one missing parent. -/
theorem fullyFilled_iff (info : FixedSystemInfo) (time : ℚ) (ref : TreeRef)
    (records : List ProcessRecord) (distinct : (records.map (·.pid)).Nodup)
    (success : 0 < (initRecords info allProcesses time ref records).2)
    (acyclic : ∀ pid, ¬TransGen (ParentLink (records.map recordLink)) pid pid) :
    FullyFilled (visibleEntries (initRecords info allProcesses time ref records).1) ↔
      (rootPids (records.map recordLink)).length = 1 := by
  obtain ⟨_, root, inside, _, own, _, treeEq⟩ := initRecords_success info time ref records success
  have linked := snapshot_linked info time ref records distinct
  have filled := fillTree_filled linked inside own (snapshot_unvisited info allProcesses time ref records)
  have fresh := snapshot_unvisited info allProcesses time ref records
  have roots (pid : Int) := mem_rootPids info time ref records pid
  have unique : (rootPids (records.map recordLink)).Nodup := by
    apply rootPids_nodup
    rwa [List.map_map]
  have above (index : Nat) := exists_root_above info time ref records distinct acyclic index
  have entriesEq : visibleEntries (initRecords info allProcesses time ref records).1 =
      (fillTree (snapshot info allProcesses time ref records).pt root).pt := by
    simp [visibleEntries, treeEq]
  rw [entriesEq]
  generalize (snapshot info allProcesses time ref records).pt = pt at *
  have lengths : (fillTree pt root).pt.length = pt.length := by
    simpa using congrArg List.length filled.fixed
  have visited := filled.visited_iff fresh
  have rootMem := (roots (entryAt pt root).pid).mpr ⟨root, inside, own, rfl⟩
  constructor
  · intro all
    have same : ∀ pid ∈ rootPids (records.map recordLink), pid = (entryAt pt root).pid := by
      intro pid member
      obtain ⟨other, bound, otherOwn, pidEq⟩ := (roots pid).mp member
      have path := (visited other).mp (all other (by omega)).1
      rw [← pidEq, linked.root_within otherOwn path]
    have single := List.eq_replicate_iff.mpr ⟨rfl, same⟩
    rw [single] at unique rootMem ⊢
    have atMost := List.nodup_replicate.mp unique
    have nonzero := (List.mem_replicate.mp rootMem).1
    simp only [List.length_replicate]
    omega
  · intro one index bound
    obtain ⟨top, topBound, topOwn, path⟩ := above index (by omega)
    obtain ⟨only, onlyEq⟩ := List.length_eq_one_iff.mp one
    have topMem := (roots (entryAt pt top).pid).mpr ⟨top, topBound, topOwn, rfl⟩
    rw [onlyEq, List.mem_singleton] at rootMem topMem
    have pidSame : (entryAt pt top).pid = (entryAt pt root).pid := topMem.trans rootMem.symm
    have equal : top = root := linked.pid_injective topBound inside pidSame
    have inTree := equal ▸ path
    obtain ⟨marked, exact⟩ := filled.inside index inTree
    rw [← subtreeTotals_congr filled.fixed] at exact
    exact ⟨marked, aggregated_of_totals exact⟩

def twoMissingParents : List ProcessRecord := [
  { pid := 1, ppid := 0, memoryUsage := 8 },
  { pid := 4, ppid := 40, memoryUsage := 9 }]

theorem twoMissingParents_acyclic (pid : Int) :
    ¬TransGen (ParentLink (twoMissingParents.map recordLink)) pid pid := by
  intro cycle
  obtain ⟨child, ⟨first, _⟩, _⟩ := TransGen.head'_iff.mp cycle
  obtain ⟨parent, _, ⟨last, _⟩⟩ := TransGen.tail'_iff.mp cycle
  simp only [twoMissingParents, recordLink, List.map_cons, List.map_nil, List.mem_cons,
    Prod.mk.injEq, List.not_mem_nil, or_false] at first last
  omega

theorem fullyFilled_iff_sample :
    FullyFilled (visibleEntries
      (initRecords ⟨4096, 100, 4⟩ allProcesses 50 {} twoMissingParents).1) ↔
      (rootPids (twoMissingParents.map recordLink)).length = 1 :=
  fullyFilled_iff ⟨4096, 100, 4⟩ 50 {} twoMissingParents (by decide) (by decide +kernel)
    twoMissingParents_acyclic

/-- Process 1 and its virtual parent 0 stay unfilled: the virtual entry of 40 is the last
root. -/
theorem twoMissingParents_unfilled :
    twoMissingParents ≠ [] ∧ (twoMissingParents.map (·.pid)).Nodup ∧
    (∀ pid, ¬TransGen (ParentLink (twoMissingParents.map recordLink)) pid pid) ∧
    (initRecords ⟨4096, 100, 4⟩ allProcesses 50 {} twoMissingParents).2 = 4 ∧
    (visibleEntries (initRecords ⟨4096, 100, 4⟩ allProcesses 50 {} twoMissingParents).1).map
      (fun entry => (entry.pid, entry.visited, entry.memory.usage, entry.memory.usageTotal)) =
      [(1, false, 8, 0), (4, true, 9, 9), (0, false, 0, 0), (40, true, 0, 9)] ∧
    ¬∀ entry ∈ visibleEntries
      (initRecords ⟨4096, 100, 4⟩ allProcesses 50 {} twoMissingParents).1, entry.visited = true :=
  ⟨by decide, by decide, twoMissingParents_acyclic, by decide +kernel, by decide +kernel,
    by decide +kernel⟩

end SimpleProcessMonitor
