import Mathlib.Algebra.Order.Group.Multiset
import Mathlib.Data.List.Sort
import Mathlib.Data.Multiset.Basic
import Mathlib.Data.Multiset.AddSub
import Mathlib.Data.Prod.Lex

/-!
Priority queues by their contract. A `MaxQueue` is any implementation whose `top` is
a greatest element for `key`; among equal keys it may choose as it likes. `top` and
`pop` have no value on an empty queue.
-/

namespace Selection

structure MaxQueue {α κ : Type} [LinearOrder κ] (key : α → κ) where
  Carrier : Type
  empty : Carrier
  push : α → Carrier → Carrier
  top : Carrier → Option α
  pop : Carrier → Option Carrier
  contents : Carrier → Multiset α
  contents_empty : contents empty = 0
  contents_push : ∀ item queue, contents (push item queue) = item ::ₘ contents queue
  top_empty : ∀ queue, contents queue = 0 → top queue = none
  top_greatest : ∀ queue, contents queue ≠ 0 → ∃ item rest,
    top queue = some item ∧ pop queue = some rest ∧
      contents queue = item ::ₘ contents rest ∧ ∀ other ∈ contents rest, key other ≤ key item

variable {α κ : Type} [LinearOrder κ] {key : α → κ}

def MaxQueue.pushAll (impl : MaxQueue key) (items : List α) (queue : impl.Carrier) :
    impl.Carrier :=
  items.foldl (fun queue item => impl.push item queue) queue

/-- `count` rounds of `top` and `pop`; `none` if one of them meets an empty queue. -/
def MaxQueue.drain (impl : MaxQueue key) : Nat → impl.Carrier → Option (List α)
  | 0, _ => some []
  | count + 1, queue =>
      match impl.top queue, impl.pop queue with
      | some item, some rest => (impl.drain count rest).map (List.cons item)
      | _, _ => none

theorem MaxQueue.contents_pushAll (impl : MaxQueue key) (items : List α)
    (queue : impl.Carrier) :
    impl.contents (impl.pushAll items queue) = (items : Multiset α) + impl.contents queue := by
  induction items generalizing queue with
  | nil => simp [pushAll]
  | cons item items ih =>
      have step : impl.pushAll (item :: items) queue =
          impl.pushAll items (impl.push item queue) := rfl
      rw [step, ih, impl.contents_push, ← Multiset.cons_coe, Multiset.add_cons, Multiset.cons_add]

/-- What `count` rounds leave behind: the queue splits into the taken elements, in
non-increasing order, and a rest none of which has a greater key. -/
theorem MaxQueue.drain_split (impl : MaxQueue key) (count : Nat) (queue : impl.Carrier)
    (taken : List α) (drained : impl.drain count queue = some taken) :
    taken.length = count ∧ ∃ rest, impl.contents queue = (taken : Multiset α) + rest ∧
      taken.Pairwise (fun first second => key second ≤ key first) ∧
      ∀ item ∈ taken, ∀ other ∈ rest, key other ≤ key item := by
  induction count generalizing queue taken with
  | zero =>
      simp only [drain, Option.some.injEq] at drained
      subst taken
      exact ⟨rfl, impl.contents queue, by simp, List.Pairwise.nil, by simp⟩
  | succ count ih =>
      by_cases isEmpty : impl.contents queue = 0
      · simp [drain, impl.top_empty queue isEmpty] at drained
      · obtain ⟨item, left, topEq, popEq, splitEq, greatest⟩ := impl.top_greatest queue isEmpty
        simp only [drain, topEq, popEq, Option.map_eq_some_iff] at drained
        obtain ⟨later, drainedLater, same⟩ := drained
        subst taken
        obtain ⟨length, rest, contentsEq, sorted, above⟩ := ih left later drainedLater
        have laterMem : ∀ other ∈ later, other ∈ impl.contents left := by
          intro other member
          rw [contentsEq]
          exact Multiset.mem_add.mpr (Or.inl member)
        have restMem : ∀ other ∈ rest, other ∈ impl.contents left := by
          intro other member
          rw [contentsEq]
          exact Multiset.mem_add.mpr (Or.inr member)
        refine ⟨by simp [length], rest, ?_, ?_, ?_⟩
        · rw [splitEq, contentsEq, ← Multiset.cons_add, Multiset.cons_coe]
        · exact List.pairwise_cons.mpr
            ⟨fun other member => greatest other (laterMem other member), sorted⟩
        · intro first member other otherMem
          rcases List.mem_cons.mp member with same | older
          · subst first
            exact greatest other (restMem other otherMem)
          · exact above first older other otherMem

theorem MaxQueue.drain_isSome (impl : MaxQueue key) (count : Nat) (queue : impl.Carrier) :
    (impl.drain count queue).isSome ↔ count ≤ (impl.contents queue).card := by
  induction count generalizing queue with
  | zero => simp [drain]
  | succ count ih =>
      by_cases isEmpty : impl.contents queue = 0
      · simp [drain, impl.top_empty queue isEmpty, isEmpty]
      · obtain ⟨item, rest, topEq, popEq, splitEq, _⟩ := impl.top_greatest queue isEmpty
        simp only [drain, topEq, popEq, Option.isSome_map, ih, splitEq, Multiset.card_cons]
        omega

theorem MaxQueue.above_lt (impl : MaxQueue key) {count : Nat} {queue : impl.Carrier}
    {taken : List α} (drained : impl.drain count queue = some taken) {item : α}
    (member : item ∈ taken) :
    (impl.contents queue).countP (fun other => key item < key other) < count := by
  obtain ⟨length, rest, contentsEq, _, above⟩ := impl.drain_split count queue taken drained
  have noneLeft : rest.countP (fun other => key item < key other) = 0 := by
    rw [Multiset.countP_eq_zero]
    exact fun other otherMem => not_lt.mpr (above item member other otherMem)
  have notItself : taken.countP (fun other => key item < key other) < taken.length := by
    apply List.countP_lt_length_iff.mpr
    exact ⟨item, member, by simp⟩
  rw [contentsEq, Multiset.countP_add, noneLeft, Multiset.coe_countP]
  omega

theorem MaxQueue.drain_countP (impl : MaxQueue key) {count : Nat} {queue : impl.Carrier}
    {taken : List α} (drained : impl.drain count queue = some taken) (keep : α → Prop)
    [DecidablePred keep] (kept : ∀ item ∈ taken, keep item) :
    count ≤ (impl.contents queue).countP keep := by
  obtain ⟨length, rest, contentsEq, _, _⟩ := impl.drain_split count queue taken drained
  have all : taken.countP keep = taken.length := by
    rw [List.countP_eq_length]
    simpa using kept
  rw [contentsEq, Multiset.countP_add, Multiset.coe_countP]
  omega

theorem MaxQueue.drain_mem (impl : MaxQueue key) {count : Nat} {queue : impl.Carrier}
    {taken : List α} (drained : impl.drain count queue = some taken) {item : α}
    (member : item ∈ taken) : item ∈ impl.contents queue := by
  obtain ⟨_, rest, contentsEq, _, _⟩ := impl.drain_split count queue taken drained
  rw [contentsEq]
  exact Multiset.mem_add.mpr (Or.inl member)

/-- The `count` greatest of some distinct items, in non-increasing order. -/
structure Greatest (key : α → κ) (items : List α) (count : Nat) (taken : List α) : Prop where
  length : taken.length = count
  distinct : taken.Nodup
  within : ∀ item ∈ taken, item ∈ items
  ordered : taken.Pairwise fun first second => key second ≤ key first
  maximal : ∀ other ∈ items, other ∉ taken → ∀ item ∈ taken, key other ≤ key item

theorem Greatest.map {β μ : Type} [LinearOrder μ] {items taken : List α} {count : Nat}
    (greatest : Greatest key items count taken) {view : α → β} {keyOf : β → μ}
    (injective : ∀ first ∈ items, ∀ second ∈ items, view first = view second → first = second)
    (monotone : ∀ first ∈ items, ∀ second ∈ items, key first ≤ key second →
      keyOf (view first) ≤ keyOf (view second)) :
    Greatest keyOf (items.map view) count (taken.map view) := by
  refine ⟨(List.length_map view).trans greatest.length, ?_, ?_, ?_, ?_⟩
  · exact greatest.distinct.map_on fun first firstMem second secondMem =>
      injective first (greatest.within first firstMem) second (greatest.within second secondMem)
  · intro item member
    obtain ⟨source, inTaken, rfl⟩ := List.mem_map.mp member
    exact List.mem_map_of_mem (greatest.within source inTaken)
  · refine List.pairwise_map.mpr (greatest.ordered.imp_of_mem ?_)
    intro first second firstMem secondMem below
    exact monotone second (greatest.within second secondMem) first (greatest.within first firstMem) below
  · intro other listed absent item member
    obtain ⟨source, inItems, rfl⟩ := List.mem_map.mp listed
    obtain ⟨chosen, inTaken, rfl⟩ := List.mem_map.mp member
    have waiting : source ∉ taken := fun inside => absent (List.mem_map_of_mem inside)
    exact monotone source inItems chosen (greatest.within chosen inTaken)
      (greatest.maximal source inItems waiting chosen inTaken)

/-- If no two items have the same key, the choice is determined. -/
theorem Greatest.unique {items first second : List α} {count : Nat} (keys : (items.map key).Nodup)
    (greatest : Greatest key items count first) (other : Greatest key items count second) :
    first = second := by
  have same := List.inj_on_of_nodup_map keys
  have lengths : second.length = first.length := other.length.trans greatest.length.symm
  have inside : first ⊆ second := by
    intro item member
    by_contra absent
    -- As many items are in both lists, so one of `second` is missing in `first`.
    obtain ⟨left, inSecond, notFirst⟩ : ∃ left ∈ second, left ∉ first := by
      by_contra all
      push Not at all
      have perm := (List.subperm_of_subset other.distinct all).perm_of_length_le lengths.ge
      exact absent (perm.symm.subset member)
    have listed := greatest.within item member
    have below := other.maximal item listed absent left inSecond
    have above := greatest.maximal left (other.within left inSecond) notFirst item member
    exact absent (same listed (other.within left inSecond) (le_antisymm below above) ▸ inSecond)
  refine List.Perm.eq_of_pairwise ?_ greatest.ordered other.ordered
    ((List.subperm_of_subset greatest.distinct inside).perm_of_length_le lengths.le)
  intro one two firstMem secondMem below above
  exact same (greatest.within one firstMem) (other.within two secondMem) (le_antisymm above below)

theorem MaxQueue.drain_greatest (impl : MaxQueue key) {items : List α} (distinct : items.Nodup)
    {queue : impl.Carrier} (contents : impl.contents queue = (items : Multiset α)) {count : Nat}
    (enough : count ≤ items.length) :
    ∃ taken, impl.drain count queue = some taken ∧ Greatest key items count taken := by
  have card : (impl.contents queue).card = items.length := by
    rw [contents, Multiset.coe_card]
  obtain ⟨taken, drained⟩ :=
    Option.isSome_iff_exists.mp ((impl.drain_isSome count queue).mpr (by omega))
  obtain ⟨length, rest, split, ordered, above⟩ := impl.drain_split count queue taken drained
  rw [contents] at split
  have whole : ((taken : Multiset α) + rest).Nodup := split ▸ Multiset.coe_nodup.mpr distinct
  refine ⟨taken, drained, length, ?_, ?_, ordered, ?_⟩
  · exact Multiset.coe_nodup.mp (Multiset.nodup_of_le (Multiset.le_add_right _ _) whole)
  · intro item member
    have inside : item ∈ (items : Multiset α) := split ▸ Multiset.mem_add.mpr (Or.inl member)
    exact inside
  · intro other member absent item itemMem
    have inside : other ∈ (taken : Multiset α) + rest := split ▸ Multiset.mem_coe.mpr member
    rcases Multiset.mem_add.mp inside with found | left
    · exact absurd found absent
    · exact above item itemMem other left

/-! A queue kept as a sorted list. `finer` decides ties: any order that refines the
order of the keys gives a queue for them. -/

section SortedQueue

variable {ρ : Type} [LinearOrder ρ]

def sortedQueue (key : α → κ) (finer : α → ρ)
    (refines : ∀ first second, finer first ≤ finer second → key first ≤ key second) :
    MaxQueue key where
  Carrier := { items : List α // items.Pairwise (fun first second => finer second ≤ finer first) }
  empty := ⟨[], List.Pairwise.nil⟩
  push item queue :=
    ⟨queue.val.orderedInsert (fun first second => finer second ≤ finer first) item, by
      have total : Std.Total (fun first second : α => finer second ≤ finer first) :=
        ⟨fun first second => le_total (finer second) (finer first)⟩
      have trans : IsTrans α (fun first second : α => finer second ≤ finer first) :=
        ⟨fun _ _ _ left right => le_trans right left⟩
      exact queue.property.orderedInsert _ _⟩
  top queue := queue.val.head?
  pop queue :=
    match queue with
    | ⟨[], _⟩ => none
    | ⟨_ :: rest, sorted⟩ => some ⟨rest, (List.pairwise_cons.mp sorted).2⟩
  contents queue := queue.val
  contents_empty := rfl
  contents_push item queue := by
    rw [Multiset.cons_coe, Multiset.coe_eq_coe]
    exact List.perm_orderedInsert _ _ _
  top_empty queue none := by
    rw [Multiset.coe_eq_zero] at none
    rw [none, List.head?_nil]
  top_greatest queue some := by
    match queue with
    | ⟨[], _⟩ => simp at some
    | ⟨item :: rest, sorted⟩ =>
        refine ⟨item, ⟨rest, (List.pairwise_cons.mp sorted).2⟩, rfl, rfl, rfl, ?_⟩
        intro other member
        exact refines other item ((List.pairwise_cons.mp sorted).1 other member)

theorem sortedQueue_drain (key : α → κ) (finer : α → ρ)
    (refines : ∀ first second, finer first ≤ finer second → key first ≤ key second)
    (count : Nat) (queue : (sortedQueue key finer refines).Carrier) :
    (sortedQueue key finer refines).drain count queue =
      (sortedQueue finer finer (fun _ _ le => le)).drain count queue := by
  induction count generalizing queue with
  | zero => rfl
  | succ count ih =>
      match queue with
      | ⟨[], _⟩ => rfl
      | ⟨item :: rest, sorted⟩ =>
          have tail := ih ⟨rest, (List.pairwise_cons.mp sorted).2⟩
          exact congrArg (Option.map (List.cons item)) tail

theorem sortedQueue_above {finer : α → ρ}
    {refines : ∀ first second, finer first ≤ finer second → key first ≤ key second} {item : α}
    {count : Nat} {queue : (sortedQueue key finer refines).Carrier} {taken : List α}
    (drained : (sortedQueue key finer refines).drain count queue = some taken)
    (member : item ∈ (sortedQueue key finer refines).contents queue) :
    item ∈ taken ∨ ∀ other ∈ taken, finer item ≤ finer other := by
  have byFiner := (sortedQueue_drain key finer refines count queue).symm.trans drained
  obtain ⟨_, rest, contentsEq, _, above⟩ :=
    (sortedQueue finer finer (fun _ _ below => below)).drain_split count queue taken byFiner
  have contents : (sortedQueue key finer refines).contents queue = (taken : Multiset α) + rest :=
    contentsEq
  rw [contents] at member
  rcases Multiset.mem_add.mp member with found | left
  · exact Or.inl found
  · exact Or.inr fun other otherMem => above other otherMem item left

variable [DecidableEq α]

/-- A queue that takes `item` before anything with an equal key. -/
def preferring (key : α → κ) (item : α) : MaxQueue key :=
  sortedQueue key (fun other => toLex (key other, if other = item then 1 else 0)) (by
    intro first second below
    rcases Prod.Lex.toLex_le_toLex.mp below with less | ⟨same, _⟩
    · exact le_of_lt less
    · exact le_of_eq same)

theorem preferring_drain {item : α} {count : Nat} {queue : (preferring key item).Carrier}
    {taken : List α} (drained : (preferring key item).drain count queue = some taken)
    (member : item ∈ (preferring key item).contents queue) :
    item ∈ taken ∨ ∀ other ∈ taken, key item < key other := by
  by_cases found : item ∈ taken
  · exact Or.inl found
  · right
    intro other otherMem
    have different : other ≠ item := fun same => found (same ▸ otherMem)
    have below := (sortedQueue_above drained member).resolve_left found other otherMem
    rcases Prod.Lex.toLex_le_toLex.mp below with less | ⟨_, tie⟩
    · exact less
    · simp [different] at tie

end SortedQueue

end Selection
