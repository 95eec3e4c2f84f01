import SimpleProcessMonitor.UsageChecks
import SimpleProcessMonitor.WrapperCore

/-!
What a tree remembers of the calls before: the call that built it, and of the array in front
of it the ids, the cpu times and the time.
-/

namespace SimpleProcessMonitor

/-- What a call can find out about an array. -/
structure Remembers (ref other : TreeRef) : Prop where
  sized : Sized ref
  otherSized : Sized other
  measured : (visibleEntries ref).map measured = (visibleEntries other).map measured
  time : (entryAt (visibleEntries ref) 0).time = (entryAt (visibleEntries other) 0).time

theorem Remembers.usage {ref other : TreeRef} (remembers : Remembers ref other)
    (info : FixedSystemInfo) (pid : Int) (time : ℚ) (entry : ProcessTreeT) :
    usageSelf (buildInput info pid time ref) entry =
      usageSelf (buildInput info pid time other) entry := by
  rw [oldptree_lookup ref remembers.sized, oldptree_lookup other remembers.otherSized,
    remembers.measured, remembers.time]

/-- The same array and root, in allocations of their own. -/
structure SameArray (state other : BuildState) : Prop where
  pt : state.pt = other.pt
  root : state.root = other.root

theorem SameArray.link {state other : BuildState} (same : SameArray state other) (pid : Int)
    (index : Nat) : SameArray (linkProcess pid index state) (linkProcess pid index other) := by
  obtain ⟨pt, root⟩ := same
  simp only [linkProcess, ← pt]
  split
  · exact ⟨rfl, rfl⟩
  · split
    · split
      · exact ⟨by simp only [connect, addVirtual, pt], rfl⟩
      · exact ⟨by simp only [connect, pt], root⟩
    · exact ⟨pt, root⟩

section Build

variable {input other : BuildInput}

theorem SameArray.step (pid : input.pid = other.pid)
    (usage : ∀ entry, usageSelf input entry = usageSelf other entry) {state image : BuildState}
    (same : SameArray state image) (index : Nat) :
    SameArray (buildStep input index state) (buildStep other index image) := by
  obtain ⟨pt, root⟩ := same
  have stored : SameArray
      { state with pt := state.pt.modify index (setUsageSelf (usageSelf input (entryAt state.pt index))) }
      { image with pt := image.pt.modify index (setUsageSelf (usageSelf other (entryAt image.pt index))) } :=
    ⟨by rw [usage, pt], root⟩
  rw [buildStep, buildStep, ← pid]
  exact stored.link input.pid index

theorem SameArray.buildTree (pid : input.pid = other.pid)
    (usage : ∀ entry, usageSelf input entry = usageSelf other entry) {state image : BuildState}
    (same : SameArray state image) :
    SameArray (buildTree input state) (SimpleProcessMonitor.buildTree other image) := by
  have rounds := Loop.forBelow_simulates SameArray
    (fun state image (same : SameArray state image) => congrArg List.length same.pt)
    (fun index state image _ same => same.step pid usage index) (2 * image.pt.length + 1) 0 same
  have first : buildLoop input (2 * image.pt.length + 1) 0 state =
      some (SimpleProcessMonitor.buildTree input state) := by
    rw [← same.pt]
    exact (Option.some_get (buildLoop_isSome input state)).symm
  have second : buildLoop other (2 * image.pt.length + 1) 0 image =
      some (SimpleProcessMonitor.buildTree other image) :=
    (Option.some_get (buildLoop_isSome other image)).symm
  rw [buildLoop] at first second
  rw [first, second] at rounds
  simpa using rounds

end Build

section Calls

variable {ref other : TreeRef} (remembers : Remembers ref other)

include remembers

theorem Remembers.built (info : FixedSystemInfo) (pid : Int) (time : ℚ)
    (records : List ProcessRecord) :
    SameArray (snapshot info pid time ref records) (snapshot info pid time other records) := by
  have samePid : (buildInput info pid time ref).pid = (buildInput info pid time other).pid := rfl
  exact SameArray.buildTree samePid (remembers.usage info pid time) ⟨rfl, rfl⟩

theorem Remembers.init (sys : Sys) (call : InitCall) :
    visibleEntries (call.init sys ref).1 = visibleEntries (call.init sys other).1 := by
  have failed (tree : TreeRef) (scanned : TreeRef) (nothing : visibleEntries scanned = []) :
      visibleEntries (failScan tree scanned) = [] := by
    unfold failScan delete
    split
    · split
      · exact nothing
      · rfl
    · exact nothing
  rw [InitCall.init, InitCall.init, processTreeInit, processTreeInit]
  cases initprocesstreeSysdep sys call.scan call.pid with
  | none => exact (failed ref _ rfl).trans (failed other _ rfl).symm
  | some records =>
      obtain ⟨pt, root⟩ := remembers.built sys.info call.pid
        (getNowSingleCoreCpuTime sys.info call.scan.procStat call.scan.stack) records
      simp only [initRecords]
      split
      · exact (failed ref _ rfl).trans (failed other _ rfl).symm
      · split
        · split
          · rename_i rootless
            rw [if_pos (root ▸ rootless)]
            rfl
          · rename_i rooted
            rw [if_neg (root ▸ rooted), ← pt, ← root]
            rfl
        · exact pt

end Calls

theorem InitCall.init_records {sys : Sys} {call : InitCall} (succeeds : call.Succeeds sys)
    (ref : TreeRef) :
    call.init sys ref = initRecords sys.info call.pid (call.now sys) ref (call.records sys) := by
  cases read : initprocesstreeSysdep sys call.scan call.pid with
  | none => exact absurd (by rw [InitCall.records, read]; rfl) succeeds.1
  | some records =>
      rw [InitCall.init, processTreeInit, read, InitCall.records, read]
      rfl

theorem InitCall.remembers (sys : Sys) (call : InitCall) (ref other : TreeRef) :
    Remembers (call.init sys ref).1 (call.init sys other).1 := by
  have both : (visibleEntries (call.init sys ref).1).map measured =
        (visibleEntries (call.init sys other).1).map measured ∧
      (entryAt (visibleEntries (call.init sys ref).1) 0).time =
        (entryAt (visibleEntries (call.init sys other).1) 0).time := by
    rcases call.init_view sys ref with ⟨succeeds, _, views, time, _⟩ | ⟨fails, _, empty⟩
    · rcases call.init_view sys other with ⟨_, _, otherViews, otherTime, _⟩ | ⟨fails, _⟩
      · exact ⟨views.trans otherViews.symm, time.trans otherTime.symm⟩
      · exact absurd succeeds fails
    · rcases call.init_view sys other with ⟨succeeds, _⟩ | ⟨_, _, otherEmpty⟩
      · exact absurd succeeds fails
      · rw [empty, otherEmpty]
        exact ⟨rfl, rfl⟩
  exact ⟨call.init_sized sys ref, call.init_sized sys other, both.1, both.2⟩

/-- Two calls make the tree forget all that was before them: each further tree, and each
report on it, is the one of a monitor that has seen nothing else. -/
theorem afterInits_forget (sys : Sys) (done other : List InitCall) (last call : InitCall) :
    visibleEntries (afterInits sys (done ++ [last, call])) =
        visibleEntries (afterInits sys (other ++ [last, call])) ∧
      ∀ (queue : PriorityQueue) (type : TopInfoType) (count : Int),
        getTopProcessInfos queue type count (afterInits sys (done ++ [last, call])) =
          getTopProcessInfos queue type count (afterInits sys (other ++ [last, call])) := by
  have behind (calls : List InitCall) : afterInits sys (calls ++ [last, call]) =
      (call.init sys (last.init sys (afterInits sys calls)).1).1 := by
    have two : calls ++ [last, call] = (calls ++ [last]) ++ [call] := by simp
    rw [two, afterInits_concat, afterInits_concat]
  have views : visibleEntries (afterInits sys (done ++ [last, call])) =
      visibleEntries (afterInits sys (other ++ [last, call])) := by
    rw [behind, behind]
    exact (last.remembers sys _ _).init sys call
  refine ⟨views, fun queue type count => ?_⟩
  have sizes : (afterInits sys (done ++ [last, call])).pTreeSize =
      (afterInits sys (other ++ [last, call])).pTreeSize := by
    rw [afterInits_sized, afterInits_sized, views]
  rw [getTopProcessInfos, getTopProcessInfos, sizes, views]

end SimpleProcessMonitor
