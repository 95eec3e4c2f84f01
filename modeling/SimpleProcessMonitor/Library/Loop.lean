import Mathlib.Data.List.Basic
import Mathlib.Data.List.Range

/-!
Rules for counting loops: a loop whose bound is read from the state in every round, a
loop over a fixed range whose body may fail, and runs of a machine over a list of inputs.
-/

namespace Loop

/-- `for (i = index; i < bound state; i++) state = body i state`; `none` only if the fuel
ends before the loop does. -/
def forBelow {σ : Type} (bound : σ → Nat) (body : Nat → σ → σ) : Nat → Nat → σ → Option σ
  | 0, _, _ => none
  | fuel + 1, index, state =>
      if index < bound state then forBelow bound body fuel (index + 1) (body index state)
      else some state

section ForBelow

variable {σ : Type} {bound : σ → Nat} {body : Nat → σ → σ}

/-- An invariant that each round carries from its index to the next holds at the final
bound, provided no round lowers the bound. -/
theorem forBelow_rule (motive : Nat → σ → Prop)
    (grows : ∀ state index, bound state ≤ bound (body index state))
    (step : ∀ index state, index < bound state → motive index state →
      motive (index + 1) (body index state))
    {fuel index : Nat} {state final : σ} (start : motive index state)
    (below : index ≤ bound state)
    (finished : forBelow bound body fuel index state = some final) :
    motive (bound final) final := by
  induction fuel generalizing index state with
  | zero => simp [forBelow] at finished
  | succ fuel ih =>
      simp only [forBelow] at finished
      split at finished
      · rename_i inside
        have larger := grows state index
        exact ih (step index state inside start) (by omega) finished
      · simp only [Option.some.injEq] at finished
        subst final
        have last : index = bound state := by omega
        exact last ▸ start

theorem forBelow_isSome (motive : Nat → σ → Prop) (limit : Nat)
    (bounded : ∀ index state, motive index state → bound state ≤ limit)
    (step : ∀ index state, index < bound state → motive index state →
      motive (index + 1) (body index state))
    {fuel index : Nat} {state : σ} (start : motive index state)
    (enough : limit < index + fuel) (reached : index ≤ limit) :
    (forBelow bound body fuel index state).isSome = true := by
  induction fuel generalizing index state with
  | zero => omega
  | succ fuel ih =>
      simp only [forBelow]
      split
      · rename_i inside
        have limited := bounded index state start
        exact ih (step index state inside start) (by omega) (by omega)
      · rfl

/-- The state before round `count`, counted from 0. -/
def rounds (body : Nat → σ → σ) (initial : σ) : Nat → σ
  | 0 => initial
  | count + 1 => body count (rounds body initial count)

/-- The loop makes exactly `count` rounds and ends in `final`. -/
structure ExitsAfter (bound : σ → Nat) (body : Nat → σ → σ) (initial : σ) (count : Nat)
    (final : σ) : Prop where
  reached : final = rounds body initial count
  running : ∀ index < count, index < bound (rounds body initial index)
  stopped : bound final ≤ count

theorem forBelow_exits {initial final : σ} {fuel index : Nat}
    (running : ∀ earlier < index, earlier < bound (rounds body initial earlier))
    (finished : forBelow bound body fuel index (rounds body initial index) = some final) :
    ∃ count, ExitsAfter bound body initial count final := by
  induction fuel generalizing index with
  | zero => simp [forBelow] at finished
  | succ fuel ih =>
      simp only [forBelow] at finished
      split at finished
      · rename_i inside
        refine @ih (index + 1) (fun earlier passed => ?_) finished
        by_cases last : earlier = index
        · exact last ▸ inside
        · exact running earlier (by omega)
      · rename_i outside
        have same : rounds body initial index = final := Option.some.inj finished
        exact ⟨index, same.symm, running, same ▸ Nat.not_lt.mp outside⟩

/-- If no round lowers the bound, the number of rounds is the final bound. -/
theorem ExitsAfter.count_eq {initial final : σ} {count : Nat}
    (exits : ExitsAfter bound body initial count final)
    (grows : ∀ state index, bound state ≤ bound (body index state)) : count = bound final := by
  have stopped := exits.stopped
  cases count with
  | zero => omega
  | succ last =>
      have inside := exits.running last (Nat.lt_succ_self last)
      have larger := grows (rounds body initial last) last
      have reached := exits.reached
      rw [rounds] at reached
      rw [← reached] at larger
      omega

theorem ExitsAfter.rule {initial final : σ} {count : Nat}
    (exits : ExitsAfter bound body initial count final) (motive : Nat → σ → Prop)
    (start : motive 0 initial)
    (step : ∀ index state, index < bound state → motive index state →
      motive (index + 1) (body index state))
    {index : Nat} (within : index ≤ count) : motive index (rounds body initial index) := by
  induction index with
  | zero => exact start
  | succ index ih => exact step index _ (exits.running index (by omega)) (ih (by omega))

/-- Two loops whose bounds agree on related states end together, in related states. -/
theorem forBelow_simulates {τ : Type} {otherBound : τ → Nat} {otherBody : Nat → τ → τ}
    (related : σ → τ → Prop)
    (bounds : ∀ state image, related state image → bound state = otherBound image)
    (preserved : ∀ index state image, index < bound state → related state image →
      related (body index state) (otherBody index image))
    (fuel index : Nat) {state : σ} {image : τ} (start : related state image) :
    Option.Rel related (forBelow bound body fuel index state)
      (forBelow otherBound otherBody fuel index image) := by
  induction fuel generalizing index state image with
  | zero => exact Option.Rel.none
  | succ fuel ih =>
      simp only [forBelow, ← bounds state image start]
      by_cases inside : index < bound state
      · rw [if_pos inside, if_pos inside]
        exact ih (index + 1) (preserved index state image inside start)
      · rw [if_neg inside, if_neg inside]
        exact Option.Rel.some start

end ForBelow

section FoldRange

variable {σ : Type} {body : σ → Nat → Option σ}

/-- A loop over `0, …, count - 1` succeeds and reaches the last stage of an invariant that
every round advances. -/
theorem foldlM_range_rule (motive : Nat → σ → Prop) (count : Nat)
    (step : ∀ index state, index < count → motive index state →
      ∃ next, body state index = some next ∧ motive (index + 1) next)
    {state : σ} (start : motive 0 state) :
    ∃ final, (List.range count).foldlM body state = some final ∧ motive count final := by
  induction count with
  | zero => exact ⟨state, rfl, start⟩
  | succ count ih =>
      obtain ⟨middle, reached, stage⟩ :=
        ih (fun index state inside => step index state (by omega))
      obtain ⟨final, last, done⟩ := step count middle (by omega) stage
      refine ⟨final, ?_, done⟩
      simp [List.range_succ, List.foldlM_append, reached, last]

theorem foldlM_range_partial (motive : Nat → σ → Prop) (count : Nat)
    (step : ∀ index state next, index < count → motive index state →
      body state index = some next → motive (index + 1) next)
    {state final : σ} (start : motive 0 state)
    (finished : (List.range count).foldlM body state = some final) : motive count final := by
  induction count generalizing final with
  | zero =>
      simp only [List.range_zero, List.foldlM_nil, Option.pure_def, Option.some.injEq] at finished
      exact finished ▸ start
  | succ count ih =>
      rw [List.range_succ, List.foldlM_append] at finished
      obtain ⟨middle, reached, last⟩ := Option.bind_eq_some_iff.mp finished
      have stage := ih (fun index state next inside => step index state next (by omega)) reached
      exact step count middle final (by omega) stage (by simpa using last)

end FoldRange

section Run

variable {σ ι : Type} {step : σ → ι → σ}

def run (step : σ → ι → σ) (initial : σ) (inputs : List ι) : σ :=
  inputs.foldl step initial

@[simp] theorem run_concat (initial : σ) (inputs : List ι) (input : ι) :
    run step initial (inputs ++ [input]) = step (run step initial inputs) input := by
  simp [run]

theorem run_invariant (motive : σ → Prop) {initial : σ} (start : motive initial)
    (preserved : ∀ state input, motive state → motive (step state input)) (inputs : List ι) :
    motive (run step initial inputs) := by
  induction inputs using List.reverseRecOn with
  | nil => exact start
  | append_singleton inputs input ih =>
      rw [run_concat]
      exact preserved _ _ ih

theorem run_simulates {τ : Type} {other : τ → ι → τ} (related : σ → τ → Prop) {first : σ} {second : τ}
    (start : related first second)
    (preserved : ∀ state image input, related state image →
      related (step state input) (other image input)) (inputs : List ι) :
    related (run step first inputs) (run other second inputs) := by
  induction inputs generalizing first second with
  | nil => exact start
  | cons input inputs ih => exact ih (preserved first second input start)

end Run

end Loop
