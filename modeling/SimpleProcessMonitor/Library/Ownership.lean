import Mathlib.Algebra.Order.Group.Multiset
import SimpleProcessMonitor.Library.Allocation

/-!
Ownership of heap blocks by structures of pointers: what `free` and `realloc` do to the
ledger, and how the blocks of a structure are given up or taken over one after the other.
-/

namespace Allocation

/-- Nothing happens to a null pointer. -/
def Ledger.free (ledger : Ledger) : Option Nat → Ledger
  | none => ledger
  | some block => ledger.release block

def Ledger.realloc (ledger : Ledger) : Option Nat → Nat × Ledger
  | none => ledger.alloc
  | some block => ledger.resize block

def held (pointer : Option Nat) : Multiset Nat :=
  pointer.toList

@[simp] theorem held_none : held none = 0 := rfl

@[simp] theorem held_some (block : Nat) : held (some block) = {block} := rfl

/-- The live blocks are those of `blocks`, each of which occurs there once, and every other
block that was ever given out was released. -/
structure Owns (ledger : Ledger) (blocks : Multiset Nat) : Prop where
  sound : Sound ledger
  live : ledger.live.val = blocks
  complete : ∀ block < ledger.next, block ∈ ledger.live ∨ block ∈ ledger.released

theorem owns_initial : Owns {} 0 :=
  ⟨sound_initial, rfl, fun _ impossible => absurd impossible (Nat.not_lt_zero _)⟩

section Rules

variable {ledger : Ledger} {blocks rest : Multiset Nat}

theorem Owns.congr {other : Multiset Nat} (owns : Owns ledger blocks) (same : blocks = other) :
    Owns ledger other :=
  same ▸ owns

theorem Owns.mem_live (owns : Owns ledger blocks) {block : Nat} :
    block ∈ ledger.live ↔ block ∈ blocks := by
  rw [← owns.live, Finset.mem_val]

theorem Owns.alloc (owns : Owns ledger blocks) :
    Owns ledger.alloc.2 (ledger.alloc.1 ::ₘ blocks) := by
  refine ⟨owns.sound.alloc, ?_, ?_⟩
  · rw [← owns.live]
    exact Finset.insert_val_of_notMem owns.sound.next_notMem
  · intro block below
    change block ∈ insert ledger.next ledger.live ∨ block ∈ ledger.released
    by_cases newest : block = ledger.next
    · exact Or.inl (Finset.mem_insert.mpr (Or.inl newest))
    · have older : block < ledger.next := by
        change block < ledger.next + 1 at below
        omega
      rcases owns.complete block older with live | released
      · exact Or.inl (Finset.mem_insert_of_mem live)
      · exact Or.inr released

theorem Owns.release {block : Nat} (owns : Owns ledger (block ::ₘ blocks)) :
    Owns (ledger.release block) blocks := by
  have live : block ∈ ledger.live := owns.mem_live.mpr (Multiset.mem_cons_self _ _)
  refine ⟨owns.sound.release live, ?_, ?_⟩
  · change (ledger.live.erase block).val = blocks
    rw [Finset.erase_val, owns.live, Multiset.erase_cons_head]
  · intro other below
    change other ∈ ledger.live.erase block ∨ other ∈ block :: ledger.released
    by_cases same : other = block
    · exact Or.inr (List.mem_cons.mpr (Or.inl same))
    · rcases owns.complete other below with kept | released
      · exact Or.inl (Finset.mem_erase.mpr ⟨same, kept⟩)
      · exact Or.inr (List.mem_cons_of_mem _ released)

theorem Owns.free {pointer : Option Nat} (owns : Owns ledger (held pointer + rest)) :
    Owns (ledger.free pointer) rest := by
  cases pointer with
  | none => exact owns.congr (zero_add rest)
  | some block => exact Owns.release (owns.congr (Multiset.singleton_add block rest))

theorem Owns.resize {block : Nat} (owns : Owns ledger (block ::ₘ rest)) :
    Owns (ledger.resize block).2 ((ledger.resize block).1 ::ₘ rest) :=
  owns.release.alloc

theorem Owns.realloc {pointer : Option Nat} (owns : Owns ledger (held pointer + rest)) :
    Owns (ledger.realloc pointer).2 ((ledger.realloc pointer).1 ::ₘ rest) := by
  cases pointer with
  | none => exact (owns.congr (zero_add rest)).alloc
  | some block => exact Owns.resize (owns.congr (Multiset.singleton_add block rest))

theorem Owns.foldl {α : Type} {owned : α → Multiset Nat} {give : Ledger → α → Ledger}
    (gives : ∀ {ledger : Ledger} {rest : Multiset Nat} (item : α),
      Owns ledger (owned item + rest) → Owns (give ledger item) rest)
    (items : List α) (owns : Owns ledger ((items.map owned).sum + rest)) :
    Owns (items.foldl give ledger) rest := by
  induction items generalizing ledger with
  | nil => exact owns.congr (zero_add rest)
  | cons item items ih =>
      refine ih (gives item (owns.congr ?_))
      rw [List.map_cons, List.sum_cons, add_assoc]

end Rules

theorem exists_sum_modify {α : Type} (owned : α → Multiset Nat) {items : List α} {index : Nat}
    {item : α} (found : items[index]? = some item) :
    ∃ others : Multiset Nat, (items.map owned).sum = owned item + others ∧
      ∀ change : α → α, ((items.modify index change).map owned).sum = owned (change item) + others := by
  induction items generalizing index with
  | nil => simp at found
  | cons first items ih =>
      cases index with
      | zero =>
          obtain rfl : first = item := by simpa using found
          exact ⟨(items.map owned).sum, by simp, fun change => by simp⟩
      | succ index =>
          obtain ⟨others, sum, changed⟩ := ih (by simpa using found)
          refine ⟨owned first + others, ?_, ?_⟩
          · rw [List.map_cons, List.sum_cons, sum, add_left_comm]
          · intro change
            rw [List.modify_succ_cons, List.map_cons, List.sum_cons, changed, add_left_comm]

theorem sum_modify_same {α : Type} {owned : α → Multiset Nat} {change : α → α}
    (same : ∀ item, owned (change item) = owned item) (items : List α) (index : Nat) :
    ((items.modify index change).map owned).sum = (items.map owned).sum := by
  cases found : items[index]? with
  | none => rw [List.modify_eq_self (List.getElem?_eq_none_iff.mp found)]
  | some item =>
      obtain ⟨others, sum, changed⟩ := exists_sum_modify owned found
      rw [changed, sum, same]

end Allocation
