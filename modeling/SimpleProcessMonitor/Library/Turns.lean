import SimpleProcessMonitor.Library.Loop
import SimpleProcessMonitor.Library.Ownership

/-!
Threads that take turns in any order. Each has a state of its own and all use one shared
state; the order of the turns is a list of indices.
-/

namespace Turns

structure Team (γ σ : Type) where
  shared : γ
  members : List σ

section Run

variable {γ σ τ : Type}

/-- `act index shared member` is what member `index` does in its next turn. -/
def turn (act : Nat → γ → σ → γ × σ) (team : Team γ σ) (index : Nat) : Team γ σ :=
  match team.members[index]? with
  | none => team
  | some member =>
      let next := act index team.shared member
      ⟨next.1, team.members.set index next.2⟩

def runTurns (act : Nat → γ → σ → γ × σ) (team : Team γ σ) (schedule : List Nat) : Team γ σ :=
  Loop.run (turn act) team schedule

variable {act : Nat → γ → σ → γ × σ} {view : σ → τ} {own : Nat → τ → τ}

theorem turn_view
    (unshared : ∀ index shared member, view (act index shared member).2 = own index (view member))
    (team : Team γ σ) (index position : Nat) :
    ((turn act team index).members[position]?).map view =
      (team.members[position]?).map fun member =>
        if position = index then own index (view member) else view member := by
  unfold turn
  cases found : team.members[index]? with
  | none =>
      by_cases same : position = index
      · subst position
        rw [found]
        rfl
      · simp [same]
  | some member =>
      by_cases same : position = index
      · subst position
        obtain ⟨inside, rfl⟩ := List.getElem?_eq_some_iff.mp found
        simp [inside, unshared]
      · simp [List.getElem?_set_ne (Ne.symm same), same]

/-- What a member sees of itself depends on the number of its own turns alone. -/
theorem runTurns_view
    (unshared : ∀ index shared member, view (act index shared member).2 = own index (view member))
    (team : Team γ σ) (schedule : List Nat) (position : Nat) :
    ((runTurns act team schedule).members[position]?).map view =
      (team.members[position]?).map fun member =>
        (own position)^[schedule.count position] (view member) := by
  induction schedule generalizing team with
  | nil => rfl
  | cons index schedule ih =>
      refine (ih (turn act team index)).trans ?_
      have seen := congrArg (Option.map (own position)^[schedule.count position])
        (turn_view unshared team index position)
      rw [Option.map_map, Option.map_map] at seen
      refine Eq.trans seen (congrArg (Option.map · _) ?_)
      funext member
      by_cases same : position = index
      · subst position
        simp [Function.iterate_succ_apply]
      · simp [same, List.count_cons_of_ne (Ne.symm same)]

theorem runTurns_length (team : Team γ σ) (schedule : List Nat) :
    (runTurns act team schedule).members.length = team.members.length := by
  induction schedule generalizing team with
  | nil => rfl
  | cons index schedule ih =>
      refine (ih (turn act team index)).trans ?_
      unfold turn
      cases team.members[index]? with
      | none => rfl
      | some member => exact List.length_set

theorem runTurns_invariant (motive : Nat → σ → Prop)
    (preserved : ∀ index shared member, motive index member →
      motive index (act index shared member).2)
    {team : Team γ σ} (start : ∀ index member, team.members[index]? = some member → motive index member)
    (schedule : List Nat) {position : Nat} {member : σ}
    (found : (runTurns act team schedule).members[position]? = some member) :
    motive position member := by
  induction schedule generalizing team with
  | nil => exact start position member found
  | cons index schedule ih =>
      refine @ih (turn act team index) ?_ found
      intro other state read
      unfold turn at read
      cases taken : team.members[index]? with
      | none =>
          rw [taken] at read
          exact start other state read
      | some before =>
          rw [taken, List.getElem?_set] at read
          by_cases same : index = other
          · subst other
            rw [if_pos rfl] at read
            obtain ⟨inside, -⟩ := List.getElem?_eq_some_iff.mp taken
            rw [if_pos inside] at read
            exact Option.some.inj read ▸ preserved index team.shared before (start index before taken)
          · rw [if_neg same] at read
            exact start other state read

end Run

open Allocation

/-- If every turn accounts for the blocks of the member that takes it, every run accounts
for those of all members. -/
theorem runTurns_owns {σ : Type} {act : Nat → Ledger → σ → Ledger × σ}
    {owned : σ → Multiset Nat} {rest : Multiset Nat}
    (accounts : ∀ {ledger : Ledger} {others : Multiset Nat} (index : Nat) (member : σ),
      Owns ledger (owned member + others) →
      Owns (act index ledger member).1 (owned (act index ledger member).2 + others))
    {team : Team Ledger σ} (schedule : List Nat)
    (owns : Owns team.shared ((team.members.map owned).sum + rest)) :
    Owns (runTurns act team schedule).shared
      (((runTurns act team schedule).members.map owned).sum + rest) := by
  induction schedule generalizing team with
  | nil => exact owns
  | cons index schedule ih =>
      refine @ih (turn act team index) ?_
      unfold turn
      cases found : team.members[index]? with
      | none => exact owns
      | some member =>
          obtain ⟨others, sum, changed⟩ := exists_sum_modify owned found
          rw [sum, add_assoc] at owns
          refine (accounts index member owns).congr ?_
          have replaced := changed fun _ => (act index team.shared member).2
          rw [← List.set_eq_modify] at replaced
          rw [replaced, add_assoc]

end Turns
