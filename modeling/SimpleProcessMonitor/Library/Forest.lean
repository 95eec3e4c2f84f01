import Mathlib.Algebra.BigOperators.Group.Finset.Basic
import Mathlib.Algebra.BigOperators.Group.List.Basic
import Mathlib.Data.Fintype.Card
import Mathlib.Logic.Relation

/-!
Forests given by children lists: descent, disjointness of sibling subtrees, and sums over
the proper descendants of a node.
-/

namespace Forest

open Relation

variable {α : Type}

def Child (children : α → List α) (parent child : α) : Prop :=
  child ∈ children parent

abbrev Below (children : α → List α) : α → α → Prop :=
  TransGen (Child children)

abbrev Within (children : α → List α) : α → α → Prop :=
  ReflTransGen (Child children)

/-- Every node is in at most one children list, and there at most once. -/
structure IsForest (children : α → List α) : Prop where
  single : ∀ first second child, child ∈ children first → child ∈ children second → first = second
  distinct : ∀ node, (children node).Nodup

section Descent

variable {children : α → List α}

theorem below_iff {node target : α} :
    Below children node target ↔ ∃ child ∈ children node, Within children child target :=
  TransGen.head'_iff

theorem within_iff {node target : α} :
    Within children node target ↔
      target = node ∨ ∃ child ∈ children node, Within children child target :=
  reflTransGen_iff_eq_or_transGen.trans (or_congr Iff.rfl below_iff)

theorem within_total (forest : IsForest children) {first second target : α}
    (left : Within children first target) (right : Within children second target) :
    Within children first second ∨ Within children second first := by
  induction left with
  | refl => exact Or.inr right
  | tail path edge ih =>
      rename_i middle last
      rcases ReflTransGen.cases_tail_iff _ _ _ |>.mp right with same | ⟨before, walk, step⟩
      · left
        exact same ▸ path.tail edge
      · have meet : before = middle := forest.single before middle last step edge
        exact ih (meet ▸ walk)

theorem acyclic_of_root (forest : IsForest children) {root node : α}
    (top : ∀ parent, root ∉ children parent) (path : Within children root node) :
    ¬Below children node node := by
  induction path with
  | refl =>
      intro cycle
      obtain ⟨before, _, edge⟩ := TransGen.tail'_iff.mp cycle
      exact top before edge
  | tail path edge ih =>
      rename_i middle last
      intro cycle
      obtain ⟨before, walk, step⟩ := TransGen.tail'_iff.mp cycle
      have meet : before = middle := forest.single before middle last step edge
      exact ih (TransGen.head' edge (meet ▸ walk))

/-- Below an acyclic node the subtrees of two children share no node. -/
theorem siblings_disjoint (forest : IsForest children) {node first second target : α}
    (acyclic : ¬Below children node node) (firstMem : first ∈ children node)
    (secondMem : second ∈ children node) (different : first ≠ second)
    (left : Within children first target) : ¬Within children second target := by
  have blocked {upper lower : α} (upperMem : upper ∈ children node)
      (lowerMem : lower ∈ children node) (apart : lower ≠ upper) :
      ¬Within children upper lower := by
    intro path
    rcases ReflTransGen.cases_tail_iff _ _ _ |>.mp path with same | ⟨before, walk, step⟩
    · exact apart same
    · have meet : before = node := forest.single before node lower step lowerMem
      exact acyclic (TransGen.head' upperMem (meet ▸ walk))
  intro right
  rcases within_total forest left right with path | path
  · exact blocked firstMem secondMem different.symm path
  · exact blocked secondMem firstMem different path

theorem not_within_child {node child : α} (acyclic : ¬Below children node node)
    (member : child ∈ children node) : ¬Within children child node :=
  fun path => acyclic (TransGen.head' member path)

end Descent

/-! Sums over descendants. -/

section Sums

open Classical in
noncomputable def descendants (children : α → List α) (nodes : Finset α) (node : α) : Finset α :=
  nodes.filter (Below children node)

variable {children : α → List α} {nodes : Finset α}

theorem mem_descendants {node target : α} :
    target ∈ descendants children nodes node ↔ target ∈ nodes ∧ Below children node target := by
  classical
  simp [descendants]

/-- If everything hangs below one node, that node and its descendants are everything. -/
theorem sum_whole {M : Type} [AddCommMonoid M] {root : α} (member : root ∈ nodes)
    (top : ¬Below children root root) (reached : ∀ node ∈ nodes, Within children root node)
    (term : α → M) :
    term root + ∑ target ∈ descendants children nodes root, term target =
      ∑ node ∈ nodes, term node := by
  classical
  have others : descendants children nodes root = nodes.erase root := by
    ext node
    rw [mem_descendants, Finset.mem_erase, and_comm]
    refine and_congr_left fun inside => ?_
    constructor
    · rintro below rfl
      exact top below
    · intro different
      exact (reflTransGen_iff_eq_or_transGen.mp (reached node inside)).resolve_left different
  rw [others, Finset.add_sum_erase nodes term member]

open Classical in
/-- A sum over the proper descendants of a node is the sum, over its children, of the
child's own term and the sum over the child's descendants. -/
theorem sum_descendants {M : Type} [AddCommMonoid M] (forest : IsForest children)
    (closed : ∀ parent child, child ∈ children parent → child ∈ nodes) {node : α}
    (acyclic : ¬Below children node node) (term : α → M) :
    ∑ target ∈ descendants children nodes node, term target =
      ((children node).map fun child =>
        term child + ∑ target ∈ descendants children nodes child, term target).sum := by
  have split : descendants children nodes node =
      (children node).toFinset.biUnion fun child =>
        insert child (descendants children nodes child) := by
    ext target
    simp only [mem_descendants, Finset.mem_biUnion, List.mem_toFinset, Finset.mem_insert]
    constructor
    · rintro ⟨inside, below⟩
      obtain ⟨child, member, path⟩ := below_iff.mp below
      refine ⟨child, member, ?_⟩
      rcases reflTransGen_iff_eq_or_transGen.mp path with same | further
      · exact Or.inl same
      · exact Or.inr ⟨inside, further⟩
    · rintro ⟨child, member, same | ⟨inside, below⟩⟩
      · subst target
        exact ⟨closed node child member, TransGen.single member⟩
      · exact ⟨inside, TransGen.head member below⟩
  have apart : Set.PairwiseDisjoint ((children node).toFinset : Set α)
      fun child => insert child (descendants children nodes child) := by
    intro first firstMem second secondMem different
    rw [Function.onFun, Finset.disjoint_left]
    have within {child target : α}
        (member : target ∈ insert child (descendants children nodes child)) :
        Within children child target := by
      rcases Finset.mem_insert.mp member with same | below
      · exact same ▸ ReflTransGen.refl
      · exact (mem_descendants.mp below).2.to_reflTransGen
    intro target left right
    exact siblings_disjoint forest acyclic (by simpa using firstMem) (by simpa using secondMem)
      different (within left) (within right)
  rw [split, Finset.sum_biUnion apart, ← List.sum_toFinset _ (forest.distinct node)]
  apply Finset.sum_congr rfl
  intro child member
  apply Finset.sum_insert
  intro below
  have path := (mem_descendants.mp below).2
  obtain ⟨before, walk, step⟩ := TransGen.tail'_iff.mp path
  have meet : before = node :=
    forest.single before node child step (List.mem_toFinset.mp member)
  exact not_within_child acyclic (List.mem_toFinset.mp member) (meet ▸ walk)

end Sums

theorem exists_source [Finite α] {parent : α → α → Prop}
    (acyclic : ∀ node, ¬TransGen parent node node) (node : α) :
    ∃ source, ReflTransGen parent source node ∧ ∀ above, ¬parent above source := by
  have irreflexive : Std.Irrefl (TransGen parent) := ⟨acyclic⟩
  have wellFounded : WellFounded (TransGen parent) :=
    Finite.wellFounded_of_trans_of_irrefl (TransGen parent)
  induction node using wellFounded.induction with
  | _ node ih =>
      by_cases top : ∃ above, parent above node
      · obtain ⟨above, edge⟩ := top
        obtain ⟨source, path, none⟩ := ih above (TransGen.single edge)
        exact ⟨source, path.tail edge, none⟩
      · exact ⟨node, ReflTransGen.refl, fun above edge => top ⟨above, edge⟩⟩

end Forest
