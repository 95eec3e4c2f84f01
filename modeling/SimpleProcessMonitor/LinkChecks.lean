import SimpleProcessMonitor.BuildChecks

/-!
The links of the built array: after the loop of `ProcessTree_init` it is a forest.
-/

namespace SimpleProcessMonitor

/-- What one round of the loop can do to the links, once its usage is written. -/
theorem linkProcess_cases (index : Nat) (state : BuildState) :
    (selfParented (entryAt state.pt index) ∧
      linkProcess allProcesses index state =
        { state with root := index, pt := state.pt.modify index (setParent index) }) ∨
    (¬selfParented (entryAt state.pt index) ∧ ∃ grown : BuildState,
      (grown = state ∨ grown = addVirtual (entryAt state.pt index).ppid state ∧
        ∀ other ∈ state.pt, other.pid ≠ (entryAt state.pt index).ppid) ∧
      ∃ parent < grown.pt.length,
        (entryAt grown.pt parent).pid = (entryAt state.pt index).ppid ∧
        linkProcess allProcesses index state = connect index parent grown) := by
  by_cases own : selfParented (entryAt state.pt index)
  · exact Or.inl ⟨own, by simp [linkProcess, own]⟩
  · right
    refine ⟨own, ?_⟩
    rcases findProcess_cases (entryAt state.pt index).ppid state.pt with ⟨missing, absent⟩ | found
    · refine ⟨addVirtual (entryAt state.pt index).ppid state, Or.inr ⟨rfl, absent⟩,
        state.pt.length, by simp [addVirtual], ?_, ?_⟩
      · exact congrArg (·.pid) (entryAt_append_self state.pt _)
      · simp [linkProcess, own, missing]
    · obtain ⟨parent, inside, found, pidEq⟩ := found
      have isIndex : ¬(parent : Int) = -1 := by omega
      exact ⟨state, Or.inl rfl, parent, inside, pidEq, by simp [linkProcess, own, found, isIndex]⟩

def linkage (entry : ProcessTreeT) : Int × Int × Int × Nat × List Nat :=
  (entry.pid, entry.ppid, entry.parent, entry.children.count, entry.children.list)

def childrenOf (pt : Entries) (processed parent : Nat) : List Nat :=
  (List.range processed).filter fun child =>
    ¬selfParented (entryAt pt child) ∧ (entryAt pt child).parent = parent

/-- The forest of the first `processed` entries. -/
structure Linked (pt : Entries) (processed : Nat) : Prop where
  distinct : (pt.map (·.pid)).Nodup
  rootParent : ∀ index < processed, selfParented (entryAt pt index) →
    (entryAt pt index).parent = index
  childParent : ∀ index < processed, ¬selfParented (entryAt pt index) →
    ∃ parent < pt.length, (entryAt pt index).parent = parent ∧
      (entryAt pt parent).pid = (entryAt pt index).ppid
  lists : ∀ parent < pt.length,
    (entryAt pt parent).children.list = childrenOf pt processed parent
  counts : ∀ parent < pt.length,
    (entryAt pt parent).children.count = (entryAt pt parent).children.list.length

theorem linkage_parts {first second : ProcessTreeT} (same : linkage first = linkage second) :
    first.pid = second.pid ∧ first.ppid = second.ppid ∧ first.parent = second.parent ∧
      first.children.count = second.children.count ∧
      first.children.list = second.children.list := by
  simpa [linkage] using same

theorem Linked.congr {first second : Entries} {processed : Nat}
    (same : first.map linkage = second.map linkage) (linked : Linked first processed) :
    Linked second processed := by
  have lengths : first.length = second.length := by simpa using congrArg List.length same
  have parts (index : Nat) := linkage_parts (entryAt_congr linkage same index)
  have own (index : Nat) : selfParented (entryAt second index) ↔
      selfParented (entryAt first index) := by
    simp only [selfParented, (parts index).1, (parts index).2.1]
  have pids : first.map (·.pid) = second.map (·.pid) := by
    have mapped := congrArg (List.map Prod.fst) same
    rw [List.map_map, List.map_map] at mapped
    exact mapped
  constructor
  · exact pids ▸ linked.distinct
  · intro index passed root
    rw [← (parts index).2.2.1]
    exact linked.rootParent index passed ((own index).mp root)
  · intro index passed child
    obtain ⟨parent, inside, parentEq, pidEq⟩ :=
      linked.childParent index passed (fun root => child ((own index).mpr root))
    refine ⟨parent, lengths ▸ inside, ?_, ?_⟩
    · rw [← (parts index).2.2.1, parentEq]
    · rw [← (parts parent).1, pidEq, (parts index).2.1]
  · intro parent inside
    rw [← (parts parent).2.2.2.2, linked.lists parent (lengths ▸ inside)]
    simp only [childrenOf, own, fun index => (parts index).2.2.1]
  · intro parent inside
    rw [← (parts parent).2.2.2.2, ← (parts parent).2.2.2.1]
    exact linked.counts parent (lengths ▸ inside)

theorem linked_start {pt : Entries} (distinct : (pt.map (·.pid)).Nodup)
    (childless : ∀ entry ∈ pt, entry.children = {}) : Linked pt 0 := by
  constructor
  · exact distinct
  · intro index impossible
    omega
  · intro index impossible
    omega
  · intro parent inside
    simp [childless _ (entryAt_mem inside), childrenOf]
  · intro parent inside
    simp [childless _ (entryAt_mem inside)]

theorem Linked.setUsageSelf {pt : Entries} {processed : Nat} (linked : Linked pt processed)
    (index : Nat) (value : ℚ) : Linked (pt.modify index (setUsageSelf value)) processed :=
  linked.congr (map_modify_same linkage (SimpleProcessMonitor.setUsageSelf value) (fun _ => rfl) pt index).symm

theorem Linked.append {pt : Entries} {processed : Nat} (linked : Linked pt processed)
    (below : processed ≤ pt.length) {pid : Int} (absent : ∀ entry ∈ pt, entry.pid ≠ pid) :
    Linked (pt ++ [virtualEntry pid]) processed := by
  have old {index : Nat} (inside : index < pt.length) :
      entryAt (pt ++ [virtualEntry pid]) index = entryAt pt index := entryAt_append_left inside
  have lists (parent : Nat) :
      childrenOf (pt ++ [virtualEntry pid]) processed parent = childrenOf pt processed parent := by
    apply List.filter_congr
    intro child member
    rw [old (lt_of_lt_of_le (List.mem_range.mp member) below)]
  constructor
  · rw [List.map_append]
    apply List.nodup_append.mpr
    refine ⟨linked.distinct, by simp, ?_⟩
    intro left leftMem right rightMem
    obtain ⟨entry, member, same⟩ := List.mem_map.mp leftMem
    have rightEq : right = pid := by simpa [virtualEntry] using rightMem
    rw [← same, rightEq]
    exact absent entry member
  · intro index passed root
    rw [old (by omega)] at root ⊢
    exact linked.rootParent index passed root
  · intro index passed child
    rw [old (by omega)] at child ⊢
    obtain ⟨parent, inside, parentEq, pidEq⟩ := linked.childParent index passed child
    exact ⟨parent, by simp; omega, parentEq, by rw [old inside, pidEq]⟩
  · intro parent inside
    rw [lists]
    by_cases last : parent < pt.length
    · rw [old last]
      exact linked.lists parent last
    · have isNew : parent = pt.length := by
        simp at inside
        omega
      subst parent
      rw [entryAt_append_self]
      symm
      apply List.filter_eq_nil_iff.mpr
      intro child member
      simp only [decide_eq_true_eq, not_and]
      intro notRoot atEnd
      obtain ⟨parent, within, parentEq, _⟩ :=
        linked.childParent child (List.mem_range.mp member) notRoot
      rw [parentEq] at atEnd
      omega
  · intro parent inside
    by_cases last : parent < pt.length
    · rw [old last]
      exact linked.counts parent last
    · have isNew : parent = pt.length := by
        simp at inside
        omega
      rw [isNew, entryAt_append_self]
      rfl

theorem Linked.advance {pt next : Entries} {index : Nat} (linked : Linked pt index)
    (ids : next.map link = pt.map link)
    (older : ∀ position < index, (entryAt next position).parent = (entryAt pt position).parent)
    (rootParent : selfParented (entryAt pt index) → (entryAt next index).parent = index)
    (childParent : ¬selfParented (entryAt pt index) → ∃ parent < pt.length,
      (entryAt next index).parent = parent ∧ (entryAt pt parent).pid = (entryAt pt index).ppid)
    (lists : ∀ parent < pt.length, (entryAt next parent).children.list =
      (entryAt pt parent).children.list ++
        if ¬selfParented (entryAt pt index) ∧ (entryAt next index).parent = parent then [index]
        else [])
    (counts : ∀ parent < pt.length,
      (entryAt next parent).children.count = (entryAt next parent).children.list.length) :
    Linked next (index + 1) := by
  have lengths : next.length = pt.length := by simpa using congrArg List.length ids
  have links (position : Nat) : link (entryAt next position) = link (entryAt pt position) :=
    entryAt_congr link ids position
  have pidSame (position : Nat) : (entryAt next position).pid = (entryAt pt position).pid :=
    congrArg Prod.fst (links position)
  have ppidSame (position : Nat) : (entryAt next position).ppid = (entryAt pt position).ppid :=
    congrArg Prod.snd (links position)
  have roots (position : Nat) :
      selfParented (entryAt next position) ↔ selfParented (entryAt pt position) := by
    rw [selfParented_iff_link, selfParented_iff_link, links]
  constructor
  · have pids := congrArg (List.map Prod.fst) ids
    rw [List.map_map, List.map_map] at pids
    exact (show next.map (·.pid) = pt.map (·.pid) from pids) ▸ linked.distinct
  · intro position passed root
    by_cases last : position = index
    · subst position
      exact rootParent ((roots index).mp root)
    · rw [older position (by omega)]
      exact linked.rootParent position (by omega) ((roots position).mp root)
  · intro position passed child
    rw [ppidSame]
    by_cases last : position = index
    · subst position
      obtain ⟨parent, inside, parentEq, pidEq⟩ :=
        childParent (fun root => child ((roots index).mpr root))
      exact ⟨parent, by omega, parentEq, by rw [pidSame, pidEq]⟩
    · obtain ⟨parent, inside, parentEq, pidEq⟩ := linked.childParent position (by omega)
        (fun root => child ((roots position).mpr root))
      exact ⟨parent, by omega, by rw [older position (by omega), parentEq], by rw [pidSame, pidEq]⟩
  · intro parent inside
    have within : parent < pt.length := by omega
    rw [lists parent within, linked.lists parent within]
    simp only [childrenOf, List.range_succ, List.filter_append]
    congr 1
    · apply List.filter_congr
      intro child member
      rw [older child (List.mem_range.mp member)]
      simp only [roots]
    · simp only [roots, List.filter_cons, List.filter_nil, decide_eq_true_eq]
  · intro parent inside
    exact counts parent (by omega)

theorem Linked.setRoot {pt : Entries} {index : Nat} (linked : Linked pt index)
    (inside : index < pt.length) (own : selfParented (entryAt pt index)) :
    Linked (pt.modify index (setParent index)) (index + 1) := by
  have childrenSame : (pt.modify index (setParent index)).map (·.children) = pt.map (·.children) :=
    map_modify_same _ (setParent index) (fun _ => rfl) pt index
  apply linked.advance
  · exact map_modify_same link (setParent index) (fun _ => rfl) pt index
  · intro position passed
    rw [entryAt_modify_ne _ _ (by omega)]
  · intro _
    rw [entryAt_modify_self _ inside]
    rfl
  · exact fun child => absurd own child
  · intro parent _
    rw [entryAt_congr (·.children) childrenSame parent]
    simp [own]
  · intro parent within
    rw [entryAt_congr (·.children) childrenSame parent]
    exact linked.counts parent within

theorem Linked.connect {state : BuildState} {index parent : Nat} (linked : Linked state.pt index)
    (inside : index < state.pt.length) (child : ¬selfParented (entryAt state.pt index))
    (within : parent < state.pt.length)
    (found : (entryAt state.pt parent).pid = (entryAt state.pt index).ppid) :
    Linked (SimpleProcessMonitor.connect index parent state).pt (index + 1) := by
  let marked := state.pt.modify index (setParent parent)
  have different : parent ≠ index := by
    intro same
    rw [same] at found
    exact child (Or.inl found)
  have childrenSame : marked.map (·.children) = state.pt.map (·.children) :=
    map_modify_same _ (setParent parent) (fun _ => rfl) state.pt index
  have markedParent : (entryAt (marked.modify parent (addChild index)) index).parent = parent := by
    rw [entryAt_modify_ne _ _ different, entryAt_modify_self _ inside]
    rfl
  have listOf (position : Nat) : (entryAt (marked.modify parent (addChild index)) position).children =
      if position = parent then
        (addChild index (entryAt state.pt parent)).children
      else (entryAt state.pt position).children := by
    by_cases same : position = parent
    · subst position
      rw [entryAt_modify_self _ (by simpa [marked] using within), entryAt_modify_ne _ _ different.symm]
      simp
    · rw [entryAt_modify_ne _ _ (Ne.symm same), entryAt_congr (·.children) childrenSame]
      simp [same]
  change Linked (marked.modify parent (addChild index)) (index + 1)
  apply linked.advance
  · rw [map_modify_same link (addChild index) (fun _ => rfl)]
    exact map_modify_same link (setParent parent) (fun _ => rfl) state.pt index
  · intro position passed
    have parentSame : (marked.modify parent (addChild index)).map (·.parent) =
        marked.map (·.parent) := map_modify_same _ (addChild index) (fun _ => rfl) _ _
    rw [entryAt_congr (·.parent) parentSame, entryAt_modify_ne _ _ (by omega)]
  · exact fun own => absurd own child
  · intro _
    exact ⟨parent, within, markedParent, found⟩
  · intro position bound
    rw [listOf, markedParent]
    by_cases same : position = parent
    · subst position
      simp [addChild, child, linked.counts parent within]
    · have other : ¬(parent : Int) = position := by omega
      simp [same, other]
  · intro position bound
    rw [listOf]
    by_cases same : position = parent
    · simp [same, addChild, linked.counts parent within]
    · simp only [same, if_false]
      exact linked.counts position bound

theorem Linked.step {input : BuildInput} (all : input.pid = allProcesses) {index : Nat}
    {state : BuildState} (inside : index < state.pt.length) (linked : Linked state.pt index) :
    Linked (buildStep input index state).pt (index + 1) := by
  let marked : BuildState :=
    { state with
      pt := state.pt.modify index
        (SimpleProcessMonitor.setUsageSelf (usageSelf input (entryAt state.pt index))) }
  have markedLinked : Linked marked.pt index := linked.setUsageSelf _ _
  have markedInside : index < marked.pt.length := by simpa [marked] using inside
  change Linked (linkProcess input.pid index marked).pt (index + 1)
  rw [all]
  rcases linkProcess_cases index marked with ⟨own, stepEq⟩ | ⟨child, grown, kind, parent, within,
    found, stepEq⟩
  · rw [stepEq]
    exact markedLinked.setRoot markedInside own
  · rw [stepEq]
    rcases kind with same | ⟨same, absent⟩
    · subst grown
      exact markedLinked.connect markedInside child within found
    · subst grown
      have kept : entryAt (addVirtual (entryAt marked.pt index).ppid marked).pt index =
          entryAt marked.pt index := entryAt_append_left markedInside
      apply (markedLinked.append (Nat.le_of_lt markedInside) absent).connect
      · simp only [addVirtual, List.length_append]
        omega
      · rw [kept]
        exact child
      · exact within
      · rw [kept]
        exact found

theorem buildTree_linked (input : BuildInput) (all : input.pid = allProcesses)
    (state : BuildState) (distinct : (state.pt.map (·.pid)).Nodup)
    (childless : ∀ entry ∈ state.pt, entry.children = {}) :
    Linked (buildTree input state).pt (buildTree input state).pt.length :=
  buildTree_rule input (fun index current => Linked current.pt index)
    (linked_start distinct childless) (fun _ _ inside => Linked.step all inside)

/-! The local variable `root`. -/

/-- `root` is the last self-parented entry among the first `processed`, or -1. -/
def LastRoot (pt : Entries) (processed : Nat) (root : Int) : Prop :=
  (root = -1 ∧ ∀ index < processed, ¬selfParented (entryAt pt index)) ∨
    ∃ last < processed, root = last ∧ selfParented (entryAt pt last) ∧
      ∀ index, last < index → index < processed → ¬selfParented (entryAt pt index)

/-- While virtual entries wait behind the index, `root` may hold the pid of one of them;
it is an index again once the loop has passed them. -/
structure RootTracked (scanned index : Nat) (state : BuildState) : Prop where
  grown : scanned ≤ state.pt.length
  virtualOwn : ∀ position, scanned ≤ position → position < state.pt.length →
    selfParented (entryAt state.pt position)
  noVirtual : state.pt.length = scanned → LastRoot state.pt index state.root
  passedVirtual : ∀ position, scanned ≤ position → index = position + 1 → state.root = position

theorem buildStep_selfParented (input : BuildInput) (index : Nat) (state : BuildState)
    {position : Nat} (inside : position < state.pt.length) :
    selfParented (entryAt (buildStep input index state).pt position) ↔
      selfParented (entryAt state.pt position) := by
  rw [← selfParented_core, buildStep_kept input index state inside, selfParented_core]

theorem buildStep_appended (input : BuildInput) (index : Nat) (state : BuildState)
    {position : Nat} (outside : state.pt.length ≤ position)
    (inside : position < (buildStep input index state).pt.length) :
    selfParented (entryAt (buildStep input index state).pt position) := by
  have appended := entryAt_view_back core (buildStep_core input index state) inside
    (by simpa using outside)
  obtain ⟨pid, _, same⟩ := List.mem_map.mp appended
  rw [← selfParented_core, ← same]
  exact selfParented_virtualEntry pid

theorem buildStep_root {input : BuildInput} (all : input.pid = allProcesses) {index : Nat}
    {state : BuildState} (inside : index < state.pt.length) :
    (selfParented (entryAt state.pt index) ∧ (buildStep input index state).root = index) ∨
    (¬selfParented (entryAt state.pt index) ∧
      ((buildStep input index state).pt.length = state.pt.length →
        (buildStep input index state).root = state.root)) := by
  let self := usageSelf input (entryAt state.pt index)
  let marked : BuildState := { state with pt := state.pt.modify index (setUsageSelf self) }
  have kept : entryAt marked.pt index = setUsageSelf self (entryAt state.pt index) :=
    entryAt_modify_self _ inside
  have ownSame : selfParented (entryAt marked.pt index) ↔ selfParented (entryAt state.pt index) := by
    rw [kept]
    rfl
  change (_ ∧ (linkProcess input.pid index marked).root = _) ∨
    (_ ∧ ((linkProcess input.pid index marked).pt.length = _ →
      (linkProcess input.pid index marked).root = _))
  rw [all]
  rcases linkProcess_cases index marked with ⟨own, stepEq⟩ | ⟨child, grown, kind, parent, _, _,
    stepEq⟩
  · exact Or.inl ⟨ownSame.mp own, by rw [stepEq]⟩
  · right
    refine ⟨fun own => child (ownSame.mpr own), ?_⟩
    rw [stepEq]
    rcases kind with same | ⟨same, _⟩
    · subst grown
      exact fun _ => rfl
    · subst grown
      simp [SimpleProcessMonitor.connect, addVirtual, marked]

theorem RootTracked.step {input : BuildInput} (all : input.pid = allProcesses)
    {scanned index : Nat} {state : BuildState} (inside : index < state.pt.length)
    (tracked : RootTracked scanned index state) :
    RootTracked scanned (index + 1) (buildStep input index state) := by
  have longer : state.pt.length ≤ (buildStep input index state).pt.length := by
    rw [buildStep_length]
    omega
  constructor
  · exact le_trans tracked.grown longer
  · intro position outside bound
    by_cases older : position < state.pt.length
    · rw [buildStep_selfParented _ _ _ older]
      exact tracked.virtualOwn position outside older
    · exact buildStep_appended _ _ _ (Nat.not_lt.mp older) bound
  · intro none
    have grown := tracked.grown
    have before : state.pt.length = scanned := by omega
    have roots {position : Nat} (passed : position < index + 1) :
        selfParented (entryAt (buildStep input index state).pt position) ↔
          selfParented (entryAt state.pt position) :=
      buildStep_selfParented _ _ _ (by omega)
    rcases buildStep_root all inside with ⟨own, rootEq⟩ | ⟨child, rootEq⟩
    · right
      exact ⟨index, by omega, rootEq, (roots (by omega)).mpr own, fun _ _ _ => by omega⟩
    · rw [rootEq (by omega)]
      rcases tracked.noVirtual before with ⟨noRoot, absent⟩ | ⟨last, passed, lastEq, own, absent⟩
      · left
        refine ⟨noRoot, ?_⟩
        intro position bound
        rw [roots bound]
        by_cases current : position = index
        · exact current ▸ child
        · exact absent position (by omega)
      · right
        refine ⟨last, by omega, lastEq, (roots (by omega)).mpr own, ?_⟩
        intro position after bound
        rw [roots bound]
        by_cases current : position = index
        · exact current ▸ child
        · exact absent position after (by omega)
  · intro position outside passed
    have current : position = index := by omega
    subst position
    rcases buildStep_root all inside with ⟨_, rootEq⟩ | ⟨child, _⟩
    · exact rootEq
    · exact absurd (tracked.virtualOwn index outside inside) child

theorem buildTree_root (input : BuildInput) (all : input.pid = allProcesses)
    (state : BuildState) (unset : state.root = -1) :
    LastRoot (buildTree input state).pt (buildTree input state).pt.length
      (buildTree input state).root := by
  have start : RootTracked state.pt.length 0 state := by
    constructor
    · exact Nat.le_refl _
    · intro position outside inside
      omega
    · exact fun _ => Or.inl ⟨unset, fun _ impossible => by omega⟩
    · intro position _ impossible
      omega
  have tracked := buildTree_rule input (RootTracked state.pt.length) start
    (fun _ _ inside => RootTracked.step all inside)
  by_cases none : (buildTree input state).pt.length = state.pt.length
  · exact tracked.noVirtual none
  · have grown := tracked.grown
    obtain ⟨position, last⟩ : ∃ position, (buildTree input state).pt.length = position + 1 :=
      ⟨(buildTree input state).pt.length - 1, by omega⟩
    right
    refine ⟨position, by omega, tracked.passedVirtual position (by omega) last,
      tracked.virtualOwn position (by omega) (by omega), ?_⟩
    intro index after bound
    omega

theorem Linked.pid_injective {pt : Entries} {processed : Nat} (linked : Linked pt processed)
    {first second : Nat} (firstBound : first < pt.length) (secondBound : second < pt.length)
    (same : (entryAt pt first).pid = (entryAt pt second).pid) : first = second := by
  have firstInPids : first < (pt.map (·.pid)).length := by simpa using firstBound
  have secondInPids : second < (pt.map (·.pid)).length := by simpa using secondBound
  have inPids : (pt.map (·.pid))[first] = (pt.map (·.pid))[second] := by
    simpa [entryAt, firstBound, secondBound] using same
  exact (List.Nodup.getElem_inj_iff linked.distinct).mp inPids

structure WellFormedForest (pt : Entries) (root : Int) : Prop where
  distinct : (pt.map (·.pid)).Nodup
  parentBound : ∀ index < pt.length, ∃ parent < pt.length, (entryAt pt index).parent = parent
  placed : ∀ index < pt.length,
    (selfParented (entryAt pt index) ∧ (entryAt pt index).parent = index ∧
      ∀ other < pt.length, index ∉ (entryAt pt other).children.list) ∨
    (¬selfParented (entryAt pt index) ∧ ∃ parent < pt.length, parent ≠ index ∧
      (entryAt pt index).parent = parent ∧ (entryAt pt parent).pid = (entryAt pt index).ppid ∧
      (entryAt pt parent).children.list.count index = 1 ∧
      ∀ other < pt.length, other ≠ parent → index ∉ (entryAt pt other).children.list)
  counts : ∀ index < pt.length,
    (entryAt pt index).children.list.length = (entryAt pt index).children.count
  sorted : ∀ index < pt.length,
    (entryAt pt index).children.list.Pairwise (fun first second => first < second)
  childBound : ∀ index < pt.length, ∀ child ∈ (entryAt pt index).children.list, child < pt.length
  rootIndex : root = -1 ∨ ∃ index < pt.length, root = index ∧ selfParented (entryAt pt index)

theorem mem_childrenOf {pt : Entries} {processed parent child : Nat} :
    child ∈ childrenOf pt processed parent ↔ child < processed ∧
      ¬selfParented (entryAt pt child) ∧ (entryAt pt child).parent = parent := by
  simp [childrenOf]

theorem Linked.wellFormed {pt : Entries} {root : Int} (linked : Linked pt pt.length)
    (lastRoot : LastRoot pt pt.length root) : WellFormedForest pt root := by
  constructor
  · exact linked.distinct
  · intro index inside
    by_cases own : selfParented (entryAt pt index)
    · exact ⟨index, inside, linked.rootParent index inside own⟩
    · obtain ⟨parent, within, parentEq, _⟩ := linked.childParent index inside own
      exact ⟨parent, within, parentEq⟩
  · intro index inside
    by_cases own : selfParented (entryAt pt index)
    · refine Or.inl ⟨own, linked.rootParent index inside own, ?_⟩
      intro other bound member
      rw [linked.lists other bound, mem_childrenOf] at member
      exact member.2.1 own
    · obtain ⟨parent, within, parentEq, pidEq⟩ := linked.childParent index inside own
      refine Or.inr ⟨own, parent, within, ?_, parentEq, pidEq, ?_, ?_⟩
      · intro same
        exact own (Or.inl (same ▸ pidEq))
      · rw [linked.lists parent within]
        apply List.count_eq_one_of_mem
        · exact List.nodup_range.filter _
        · exact mem_childrenOf.mpr ⟨inside, own, parentEq⟩
      · intro other bound different member
        rw [linked.lists other bound, mem_childrenOf, parentEq] at member
        exact different (by omega)
  · intro index inside
    exact (linked.counts index inside).symm
  · intro index inside
    rw [linked.lists index inside]
    exact List.pairwise_lt_range.filter _
  · intro index inside child member
    rw [linked.lists index inside, mem_childrenOf] at member
    exact member.1
  · rcases lastRoot with ⟨noRoot, _⟩ | ⟨last, inside, rootEq, own, _⟩
    · exact Or.inl noRoot
    · exact Or.inr ⟨last, inside, rootEq, own⟩

end SimpleProcessMonitor
