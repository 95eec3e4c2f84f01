import Mathlib.Data.Finset.Basic
import Mathlib.Data.Finset.Insert
import Mathlib.Data.Finset.Option

/-!
A ledger of heap blocks. Every allocation gets a fresh name, so that a block that
was given up can be told apart from every later one.
-/

namespace Allocation

structure Ledger where
  next : Nat := 0
  live : Finset Nat := ∅
  released : List Nat := []

def Ledger.alloc (ledger : Ledger) : Nat × Ledger :=
  (ledger.next, { ledger with
    next := ledger.next + 1
    live := insert ledger.next ledger.live
  })

def Ledger.release (ledger : Ledger) (block : Nat) : Ledger :=
  { ledger with
    live := ledger.live.erase block
    released := block :: ledger.released
  }

def Ledger.resize (ledger : Ledger) (block : Nat) : Nat × Ledger :=
  (ledger.release block).alloc

/-- No block was released twice, and no released block is still counted as live. -/
structure Sound (ledger : Ledger) : Prop where
  liveBelow : ∀ block ∈ ledger.live, block < ledger.next
  releasedBelow : ∀ block ∈ ledger.released, block < ledger.next
  releasedOnce : ledger.released.Nodup
  disjoint : ∀ block ∈ ledger.released, block ∉ ledger.live

theorem sound_initial : Sound {} := by
  constructor <;> simp

theorem Sound.alloc {ledger : Ledger} (sound : Sound ledger) : Sound ledger.alloc.2 := by
  constructor
  · intro block member
    rcases Finset.mem_insert.mp member with same | older
    · subst block
      exact Nat.lt_succ_self _
    · exact Nat.lt_succ_of_lt (sound.liveBelow block older)
  · intro block member
    exact Nat.lt_succ_of_lt (sound.releasedBelow block member)
  · exact sound.releasedOnce
  · intro block member
    have below := sound.releasedBelow block member
    have absent := sound.disjoint block member
    simp only [Ledger.alloc, Finset.mem_insert, not_or]
    exact ⟨by omega, absent⟩

theorem Sound.release {ledger : Ledger} {block : Nat} (sound : Sound ledger)
    (live : block ∈ ledger.live) : Sound (ledger.release block) := by
  have fresh : block ∉ ledger.released := fun member => sound.disjoint block member live
  constructor
  · intro other member
    exact sound.liveBelow other (Finset.mem_of_mem_erase member)
  · intro other member
    rcases List.mem_cons.mp member with same | older
    · subst other
      exact sound.liveBelow block live
    · exact sound.releasedBelow other older
  · exact List.nodup_cons.mpr ⟨fresh, sound.releasedOnce⟩
  · intro other member
    simp only [Ledger.release, Finset.mem_erase, not_and]
    intro different
    exact sound.disjoint other ((List.mem_cons.mp member).resolve_left different)

theorem Sound.next_notMem {ledger : Ledger} (sound : Sound ledger) :
    ledger.next ∉ ledger.live := by
  intro member
  exact Nat.lt_irrefl _ (sound.liveBelow _ member)

/-- Exactly the blocks of `owners` are live. -/
def Holds (ledger : Ledger) (owners : Finset Nat) : Prop :=
  Sound ledger ∧ ledger.live = owners

theorem Holds.alloc {ledger : Ledger} {owners : Finset Nat} (holds : Holds ledger owners) :
    Holds ledger.alloc.2 (insert ledger.alloc.1 owners) :=
  ⟨holds.1.alloc, by simp [Ledger.alloc, holds.2]⟩

theorem Holds.alloc_fresh {ledger : Ledger} {owners : Finset Nat} (holds : Holds ledger owners) :
    ledger.alloc.1 ∉ owners := by
  rw [← holds.2]
  exact holds.1.next_notMem

theorem Holds.release {ledger : Ledger} {owners : Finset Nat} {block : Nat}
    (holds : Holds ledger (insert block owners)) (absent : block ∉ owners) :
    Holds (ledger.release block) owners := by
  have live : block ∈ ledger.live := by simp [holds.2]
  refine ⟨holds.1.release live, ?_⟩
  simp [Ledger.release, holds.2, Finset.erase_insert absent]

theorem Holds.resize {ledger : Ledger} {owners : Finset Nat} {block : Nat}
    (holds : Holds ledger (insert block owners)) (absent : block ∉ owners) :
    Holds (ledger.resize block).2 (insert (ledger.resize block).1 owners) ∧
      (ledger.resize block).1 ∉ owners :=
  ⟨(holds.release absent).alloc, (holds.release absent).alloc_fresh⟩

end Allocation
