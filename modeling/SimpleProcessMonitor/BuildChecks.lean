import SimpleProcessMonitor.ProcessTreeInit

/-!
What the build loop of `ProcessTree_init` leaves in the array: which virtual entries it
appends, and the links between the entries.
-/

namespace SimpleProcessMonitor

abbrev Links := List (Int × Int)

def link (entry : ProcessTreeT) : Int × Int :=
  (entry.pid, entry.ppid)

/-- A process that needs a parent no process of the snapshot is. -/
def orphan (links : Links) (process : Int × Int) : Prop :=
  process.1 ≠ process.2 ∧ process.2 ≠ -1 ∧ process.2 ∉ links.map Prod.fst

instance (links : Links) (process : Int × Int) : Decidable (orphan links process) :=
  inferInstanceAs (Decidable (_ ∧ _ ∧ _))

/-- The parents missing from a snapshot, in the order in which its first `index`
processes ask for them. -/
def missingBefore (links : Links) (index : Nat) : List Int :=
  (((links.take index).filter (orphan links)).map Prod.snd).eraseDups

def missingParents (links : Links) : List Int :=
  ((links.filter (orphan links)).map Prod.snd).eraseDups

def virtualPids (pid : Int) (links : Links) : List Int :=
  if pid = allProcesses then missingParents links else []

theorem mem_missingParents {links : Links} {pid : Int} :
    pid ∈ missingParents links ↔ ∃ process ∈ links, orphan links process ∧ process.2 = pid := by
  simp only [missingParents, List.mem_eraseDups, List.mem_map, List.mem_filter, decide_eq_true_eq]
  constructor
  · rintro ⟨process, ⟨member, needs⟩, same⟩
    exact ⟨process, member, needs, same⟩
  · rintro ⟨process, member, needs, same⟩
    exact ⟨process, ⟨member, needs⟩, same⟩

theorem missingParents_notMem {links : Links} {pid : Int} (missing : pid ∈ missingParents links) :
    pid ∉ links.map Prod.fst := by
  obtain ⟨process, _, needs, same⟩ := mem_missingParents.mp missing
  exact same ▸ needs.2.2

theorem missingBefore_succ (links : Links) {index : Nat} (inside : index < links.length) :
    missingBefore links (index + 1) = missingBefore links index ++
      (if orphan links links[index] ∧ links[index].2 ∉ missingBefore links index then
        [links[index].2] else []) := by
  simp only [missingBefore, List.take_add_one, List.getElem?_eq_getElem inside, Option.toList_some,
    List.filter_append, List.map_append, List.eraseDups_append]
  by_cases needs : orphan links links[index]
  · by_cases seen : links[index].2 ∈ ((links.take index).filter (orphan links)).map Prod.snd
    · simp [needs, List.removeAll, seen]
    · simp [needs, List.removeAll, seen, List.eraseDups_cons]
  · simp [needs]

theorem missingBefore_of_le (links : Links) {index : Nat} (outside : links.length ≤ index) :
    missingBefore links index = missingParents links := by
  simp [missingBefore, missingParents, List.take_of_length_le outside]

/-! The cores of the array, and the published CPU usage. -/

theorem selfParented_iff_link (entry : ProcessTreeT) :
    selfParented entry ↔ (link entry).1 = (link entry).2 ∨ (link entry).2 = -1 := Iff.rfl

/-- After `index` rounds the array is the scanned one followed by the virtual entries asked
for so far, and the entries passed have their usage. -/
structure Extended (input : BuildInput) (base : Entries) (index : Nat) (state : BuildState) :
    Prop where
  cores : state.pt.map core = base.map core ++
    (if input.pid = allProcesses then missingBefore (base.map link) index else []).map virtualEntry
  usage : ∀ position < index,
    (entryAt state.pt position).cpu.usage.self = usageSelf input (entryAt state.pt position)

theorem usageSelf_congr (input : BuildInput) {first second : ProcessTreeT}
    (same : core first = core second) : usageSelf input first = usageSelf input second := by
  have pidSame : first.pid = second.pid := congrArg (·.pid) same
  have timeSame : first.cpu.time = second.cpu.time := congrArg (·.cpu.time) same
  simp only [usageSelf, pidSame, timeSame]

theorem linkProcess_usage (pid : Int) (index position : Nat) (state : BuildState)
    (inside : position < state.pt.length) :
    (entryAt (linkProcess pid index state).pt position).cpu.usage =
      (entryAt state.pt position).cpu.usage := by
  have parentUsage (parent : Int) (pt : Entries) (at_ : Nat) :
      (pt.modify at_ (setParent parent)).map (·.cpu.usage) = pt.map (·.cpu.usage) :=
    map_modify_same _ (setParent parent) (fun _ => rfl) pt at_
  have childUsage (child : Nat) (pt : Entries) (at_ : Nat) :
      (pt.modify at_ (addChild child)).map (·.cpu.usage) = pt.map (·.cpu.usage) :=
    map_modify_same _ (addChild child) (fun _ => rfl) pt at_
  have connectUsage (parent : Int) (grown : BuildState) :
      (entryAt (connect index parent grown).pt position).cpu.usage =
        (entryAt grown.pt position).cpu.usage :=
    entryAt_congr (·.cpu.usage) (by simp only [connect, childUsage, parentUsage]) position
  simp only [linkProcess]
  split
  · exact entryAt_congr (·.cpu.usage) (parentUsage _ _ _) position
  · split
    · split
      · rw [connectUsage]
        simp only [addVirtual]
        rw [entryAt_append_left inside]
      · exact connectUsage _ state
    · rfl

theorem extended_links {input : BuildInput} {base : Entries} {index : Nat} {state : BuildState}
    (extended : Extended input base index state) :
    state.pt.map link = base.map link ++
      (if input.pid = allProcesses then missingBefore (base.map link) index else []).map
        (fun pid => (pid, pid)) := by
  have links := congrArg (List.map link) extended.cores
  rw [List.map_append, List.map_map, List.map_map, List.map_map] at links
  exact links

theorem extended_newParent {input : BuildInput} {base : Entries} {index : Nat}
    {state : BuildState} (extended : Extended input base index state)
    (inside : index < state.pt.length) :
    (if input.pid = allProcesses then missingBefore (base.map link) (index + 1) else []) =
      (if input.pid = allProcesses then missingBefore (base.map link) index else []) ++
        newParent input.pid state.pt index := by
  by_cases all : input.pid = allProcesses
  · have links := extended_links extended
    simp only [all, if_true] at links ⊢
    have known (wanted : Int) : (∀ other ∈ state.pt, other.pid ≠ wanted) ↔
        wanted ∉ (base.map link).map Prod.fst ∧ wanted ∉ missingBefore (base.map link) index := by
      have pids : state.pt.map (·.pid) =
          (base.map link).map Prod.fst ++ missingBefore (base.map link) index := by
        have firsts := congrArg (List.map Prod.fst) links
        simpa [Function.comp_def, link] using firsts
      have mapped : (∀ other ∈ state.pt, other.pid ≠ wanted) ↔ wanted ∉ state.pt.map (·.pid) := by
        simp
      rw [mapped, pids, List.mem_append, not_or]
    by_cases early : index < base.length
    · have mapped : index < (base.map link).length := by simpa using early
      have linkEq : link (entryAt state.pt index) = (base.map link)[index] :=
        entryAt_view link links (List.getElem?_eq_getElem mapped)
      rw [missingBefore_succ _ mapped, ← linkEq]
      simp only [newParent, known, selfParented_iff_link, orphan, link, true_and, not_or, and_assoc]
    · have outside : base.length ≤ index := Nat.not_lt.mp early
      have own : selfParented (entryAt state.pt index) := by
        obtain ⟨pid, _, same⟩ :=
          List.mem_map.mp (entryAt_view_back link links inside (by simpa using outside))
        rw [selfParented_iff_link, ← same]
        exact Or.inl rfl
      rw [missingBefore_of_le _ (by simp; omega), missingBefore_of_le _ (by simpa using outside)]
      simp [newParent, own]
  · simp [newParent, all]

theorem Extended.step {input : BuildInput} {base : Entries} {index : Nat} {state : BuildState}
    (inside : index < state.pt.length) (extended : Extended input base index state) :
    Extended input base (index + 1) (buildStep input index state) := by
  have cores : (buildStep input index state).pt.map core = base.map core ++
      (if input.pid = allProcesses then missingBefore (base.map link) (index + 1) else []).map
        virtualEntry := by
    rw [buildStep_core, extended.cores, extended_newParent extended inside, List.map_append,
      List.append_assoc]
  refine ⟨cores, ?_⟩
  intro position passed
  have within : position < state.pt.length := by omega
  let self := usageSelf input (entryAt state.pt index)
  have usage : (entryAt (buildStep input index state).pt position).cpu.usage =
      (entryAt (state.pt.modify index (setUsageSelf self)) position).cpu.usage :=
    linkProcess_usage input.pid index position
      { state with pt := state.pt.modify index (setUsageSelf self) } (by simpa using within)
  rw [usageSelf_congr input (buildStep_kept input index state within), usage]
  by_cases last : index = position
  · subst position
    rw [entryAt_modify_self _ inside]
    rfl
  · rw [entryAt_modify_ne _ _ last]
    exact extended.usage position (by omega)

theorem extended_initial (input : BuildInput) (state : BuildState) :
    Extended input state.pt 0 state := by
  constructor
  · simp [missingBefore]
  · intro position passed
    omega

theorem buildTree_extended (input : BuildInput) (state : BuildState) :
    (buildTree input state).pt.map core = state.pt.map core ++
      (virtualPids input.pid (state.pt.map link)).map virtualEntry ∧
    ∀ position < (buildTree input state).pt.length,
      (entryAt (buildTree input state).pt position).cpu.usage.self =
        usageSelf input (entryAt (buildTree input state).pt position) := by
  have extended := buildTree_rule input (Extended input state.pt)
    (extended_initial input state) (fun index current inside => Extended.step inside)
  have longer : state.pt.length ≤ (buildTree input state).pt.length := by
    have lengths := congrArg List.length extended.cores
    simp only [List.length_map, List.length_append] at lengths
    omega
  refine ⟨?_, extended.usage⟩
  rw [extended.cores, missingBefore_of_le _ (by simpa using longer)]
  rfl

end SimpleProcessMonitor
