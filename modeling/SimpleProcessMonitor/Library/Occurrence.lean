import Mathlib.Data.List.Basic
import Mathlib.Data.List.Infix

/-!
Occurrences of a pattern in a list: where they are, how many there are, and how many a scan
finds that goes on behind each one it has found.
-/

namespace Occurrence

variable {α : Type}

def OccursAt (pattern text : List α) (index : Nat) : Prop := pattern <+: text.drop index

instance [DecidableEq α] (pattern text : List α) (index : Nat) :
    Decidable (OccursAt pattern text index) :=
  inferInstanceAs (Decidable (pattern <+: text.drop index))

def Occurs (pattern text : List α) : Prop := ∃ index, OccursAt pattern text index

/-- The position of the first occurrence, and -1 when there is none. -/
def IsFirst (pattern text : List α) (index : Int) : Prop :=
  (∃ position : Nat, index = position ∧ OccursAt pattern text position ∧
      ∀ earlier < position, ¬OccursAt pattern text earlier) ∨
    (index = -1 ∧ ¬Occurs pattern text)

def IsLast (pattern text : List α) (index : Int) : Prop :=
  (∃ position : Nat, index = position ∧ OccursAt pattern text position ∧
      ∀ later, position < later → ¬OccursAt pattern text later) ∨
    (index = -1 ∧ ¬Occurs pattern text)

/-- No two occurrences share an element. -/
def Disjoint (pattern text : List α) : Prop :=
  ∀ first second, first < second → OccursAt pattern text first → OccursAt pattern text second →
    first + pattern.length ≤ second

section Positions

variable {pattern : List α}

theorem occursAt_zero (text : List α) : OccursAt pattern text 0 ↔ pattern <+: text := by
  simp [OccursAt]

theorem occursAt_succ (first : α) (rest : List α) (index : Nat) :
    OccursAt pattern (first :: rest) (index + 1) ↔ OccursAt pattern rest index := by
  simp [OccursAt]

theorem OccursAt.room {text : List α} {index : Nat} (nonempty : pattern ≠ [])
    (occurs : OccursAt pattern text index) : index + pattern.length ≤ text.length := by
  have room := List.IsPrefix.length_le occurs
  have positive := List.length_pos_iff.mpr nonempty
  rw [List.length_drop] at room
  omega

theorem OccursAt.of_prefix {text whole : List α} {index : Nat} (front : text <+: whole)
    (occurs : OccursAt pattern text index) : OccursAt pattern whole index :=
  List.IsPrefix.trans occurs (front.drop index)

theorem not_occursAt_nil (nonempty : pattern ≠ []) (index : Nat) :
    ¬OccursAt pattern ([] : List α) index := by
  simpa [OccursAt] using nonempty

theorem occurs_cons (first : α) (rest : List α) :
    Occurs pattern (first :: rest) ↔ pattern <+: first :: rest ∨ Occurs pattern rest := by
  constructor
  · rintro ⟨index, occurs⟩
    cases index with
    | zero => exact Or.inl ((occursAt_zero _).mp occurs)
    | succ index => exact Or.inr ⟨index, (occursAt_succ first rest index).mp occurs⟩
  · rintro (found | ⟨index, occurs⟩)
    · exact ⟨0, (occursAt_zero _).mpr found⟩
    · exact ⟨index + 1, (occursAt_succ first rest index).mpr occurs⟩

theorem disjoint_cons (first : α) (rest : List α) :
    Disjoint pattern (first :: rest) ↔
      (pattern <+: first :: rest → ∀ index, index + 1 < pattern.length → ¬OccursAt pattern rest index) ∧
        Disjoint pattern rest := by
  constructor
  · intro disjoint
    refine ⟨?_, ?_⟩
    · intro found index inside occurs
      have apart := disjoint 0 (index + 1) (by omega) ((occursAt_zero _).mpr found)
        ((occursAt_succ first rest index).mpr occurs)
      omega
    · intro left right ordered atLeft atRight
      have apart := disjoint (left + 1) (right + 1) (by omega)
        ((occursAt_succ first rest left).mpr atLeft) ((occursAt_succ first rest right).mpr atRight)
      omega
  · rintro ⟨behind, disjoint⟩ left right ordered atLeft atRight
    obtain ⟨right, rfl⟩ := Nat.exists_eq_succ_of_ne_zero (by omega : right ≠ 0)
    rw [Nat.succ_eq_add_one, occursAt_succ] at atRight
    cases left with
    | zero =>
        by_contra near
        exact behind ((occursAt_zero _).mp atLeft) right (by omega) atRight
    | succ left =>
        rw [occursAt_succ] at atLeft
        have apart := disjoint left right (by omega) atLeft atRight
        omega

theorem IsFirst.occurs_iff {text : List α} {index : Int} (first : IsFirst pattern text index) :
    Occurs pattern text ↔ 0 ≤ index := by
  rcases first with ⟨position, rfl, occurs, _⟩ | ⟨rfl, absent⟩
  · exact iff_of_true ⟨position, occurs⟩ (by omega)
  · exact iff_of_false absent (by omega)

/-- No proper end of the pattern is also its beginning. -/
def Unbordered (pattern : List α) : Prop :=
  ∀ shift, 0 < shift → shift < pattern.length → ¬pattern.drop shift <+: pattern

/-- Such a pattern cannot overlap itself in any text. -/
theorem Unbordered.disjoint (unbordered : Unbordered pattern) (text : List α) :
    Disjoint pattern text := by
  intro first second ordered atFirst atSecond
  by_contra near
  have shifted : pattern.drop (second - first) <+: text.drop second := by
    have both := List.IsPrefix.drop atFirst (second - first)
    rwa [List.drop_drop, Nat.add_sub_cancel' ordered.le] at both
  refine unbordered (second - first) (by omega) (by omega) ?_
  exact List.prefix_of_prefix_length_le shifted atSecond (by rw [List.length_drop]; omega)

end Positions

variable [DecidableEq α]

def count (pattern : List α) : List α → Nat
  | [] => 0
  | first :: rest => (if pattern <+: first :: rest then 1 else 0) + count pattern rest

/-- The number of occurrences that a scan from left to right finds, when it passes over each
of them as a whole; the next `skip` elements belong to the one found last. -/
def disjointCount (pattern : List α) : Nat → List α → Nat
  | _, [] => 0
  | skip + 1, _ :: rest => disjointCount pattern skip rest
  | 0, first :: rest =>
      if pattern <+: first :: rest then 1 + disjointCount pattern (pattern.length - 1) rest
      else disjointCount pattern 0 rest

def replaceAll (pattern replacement : List α) : Nat → List α → List α
  | _, [] => []
  | skip + 1, _ :: rest => replaceAll pattern replacement skip rest
  | 0, first :: rest =>
      if pattern <+: first :: rest then
        replacement ++ replaceAll pattern replacement (pattern.length - 1) rest
      else first :: replaceAll pattern replacement 0 rest

variable {pattern : List α}

theorem disjointCount_drop (skip : Nat) (text : List α) :
    disjointCount pattern skip text = disjointCount pattern 0 (text.drop skip) := by
  induction text generalizing skip with
  | nil => simp [disjointCount]
  | cons first rest ih =>
      cases skip with
      | zero => rfl
      | succ skip => exact ih skip

theorem replaceAll_drop (replacement : List α) (skip : Nat) (text : List α) :
    replaceAll pattern replacement skip text = replaceAll pattern replacement 0 (text.drop skip) := by
  induction text generalizing skip with
  | nil => simp [replaceAll]
  | cons first rest ih =>
      cases skip with
      | zero => rfl
      | succ skip => exact ih skip

section Head

variable {first : α} {rest : List α}

theorem disjointCount_found (nonempty : pattern ≠ []) (found : pattern <+: first :: rest) :
    disjointCount pattern 0 (first :: rest) =
      1 + disjointCount pattern 0 ((first :: rest).drop pattern.length) := by
  obtain ⟨head, pattern, rfl⟩ := List.exists_cons_of_ne_nil nonempty
  rw [disjointCount, if_pos found, disjointCount_drop]
  rfl

theorem replaceAll_found (replacement : List α) (nonempty : pattern ≠ [])
    (found : pattern <+: first :: rest) :
    replaceAll pattern replacement 0 (first :: rest) =
      replacement ++ replaceAll pattern replacement 0 ((first :: rest).drop pattern.length) := by
  obtain ⟨head, pattern, rfl⟩ := List.exists_cons_of_ne_nil nonempty
  rw [replaceAll, if_pos found, replaceAll_drop]
  rfl

theorem disjointCount_skipped (absent : ¬pattern <+: first :: rest) :
    disjointCount pattern 0 (first :: rest) = disjointCount pattern 0 rest := by
  rw [disjointCount, if_neg absent]

theorem replaceAll_skipped (replacement : List α) (absent : ¬pattern <+: first :: rest) :
    replaceAll pattern replacement 0 (first :: rest) =
      first :: replaceAll pattern replacement 0 rest := by
  rw [replaceAll, if_neg absent]

end Head

theorem disjointCount_match (nonempty : pattern ≠ []) (rest : List α) :
    disjointCount pattern 0 (pattern ++ rest) = disjointCount pattern 0 rest + 1 := by
  obtain ⟨head, tail, rfl⟩ := List.exists_cons_of_ne_nil nonempty
  have found : head :: tail <+: head :: (tail ++ rest) := List.prefix_append (head :: tail) rest
  rw [List.cons_append, disjointCount_found nonempty found, ← List.cons_append, List.drop_left,
    Nat.add_comm]

theorem replaceAll_match (nonempty : pattern ≠ []) (replacement rest : List α) :
    replaceAll pattern replacement 0 (pattern ++ rest) =
      replacement ++ replaceAll pattern replacement 0 rest := by
  obtain ⟨head, tail, rfl⟩ := List.exists_cons_of_ne_nil nonempty
  have found : head :: tail <+: head :: (tail ++ rest) := List.prefix_append (head :: tail) rest
  rw [List.cons_append, replaceAll_found replacement nonempty found, ← List.cons_append,
    List.drop_left]

theorem disjointCount_le (skip : Nat) (text : List α) :
    disjointCount pattern skip text ≤ count pattern text := by
  induction text generalizing skip with
  | nil => simp [disjointCount, count]
  | cons first rest ih =>
      cases skip with
      | succ skip =>
          have later := ih skip
          simp only [disjointCount, count]
          omega
      | zero =>
          have found := ih (pattern.length - 1)
          have passed := ih 0
          simp only [disjointCount, count]
          split <;> omega

/-- The scan misses exactly the occurrences that share elements with the one before. -/
theorem disjointCount_eq_iff (nonempty : pattern ≠ []) (skip : Nat) (text : List α) :
    disjointCount pattern skip text = count pattern text ↔
      (∀ index < skip, ¬OccursAt pattern text index) ∧ Disjoint pattern text := by
  induction text generalizing skip with
  | nil =>
      simp only [disjointCount, count, true_iff]
      refine ⟨fun index _ => not_occursAt_nil nonempty index, ?_⟩
      intro left _ _ atLeft
      exact absurd atLeft (not_occursAt_nil nonempty left)
  | cons first rest ih =>
      have positive := List.length_pos_iff.mpr nonempty
      have fewer : disjointCount pattern (pattern.length - 1) rest ≤ count pattern rest :=
        disjointCount_le _ rest
      rw [disjoint_cons]
      cases skip with
      | succ skip =>
          have fewerSkip : disjointCount pattern skip rest ≤ count pattern rest :=
            disjointCount_le skip rest
          have later := ih skip
          have heads : (∀ index < skip + 1, ¬OccursAt pattern (first :: rest) index) ↔
              ¬pattern <+: first :: rest ∧ ∀ index < skip, ¬OccursAt pattern rest index := by
            have head : OccursAt pattern (first :: rest) 0 ↔ pattern <+: first :: rest :=
              occursAt_zero _
            rw [← head]
            constructor
            · intro absent
              refine ⟨absent 0 (by omega), ?_⟩
              intro index inside occurs
              exact absent (index + 1) (by omega) ((occursAt_succ first rest index).mpr occurs)
            · rintro ⟨head, absent⟩ index inside
              cases index with
              | zero => exact head
              | succ index =>
                  rw [occursAt_succ]
                  exact absent index (by omega)
          rw [heads]
          simp only [disjointCount, count]
          by_cases found : pattern <+: first :: rest
          · simp only [found, if_true, not_true_eq_false, false_and, iff_false]
            omega
          · simp only [found, if_false, not_false_eq_true, true_and, false_imp_iff, Nat.zero_add]
            exact later
      | zero =>
          simp only [disjointCount, count, Nat.not_lt_zero, false_imp_iff, implies_true, true_and]
          by_cases found : pattern <+: first :: rest
          · have later := ih (pattern.length - 1)
            simp only [found, if_true, Nat.add_left_cancel_iff, true_imp_iff]
            rw [later]
            refine and_congr_left fun _ => forall_congr' fun index => ?_
            rw [Nat.lt_sub_iff_add_lt]
          · have later := ih 0
            simpa [found] using later

theorem disjointCount_pos_iff (nonempty : pattern ≠ []) (text : List α) :
    0 < disjointCount pattern 0 text ↔ Occurs pattern text := by
  induction text with
  | nil =>
      simp only [disjointCount, Nat.lt_irrefl, false_iff]
      rintro ⟨index, occurs⟩
      exact not_occursAt_nil nonempty index occurs
  | cons first rest ih =>
      rw [occurs_cons, ← ih, disjointCount]
      by_cases found : pattern <+: first :: rest
      · simp only [found, if_true, true_or, iff_true]
        omega
      · simp only [found, if_false, false_or]

theorem replaceAll_absent (replacement : List α) {text : List α}
    (absent : disjointCount pattern 0 text = 0) : replaceAll pattern replacement 0 text = text := by
  induction text with
  | nil => rfl
  | cons first rest ih =>
      by_cases found : pattern <+: first :: rest
      · rw [disjointCount, if_pos found] at absent
        omega
      · rw [disjointCount_skipped found] at absent
        rw [replaceAll_skipped replacement found, ih absent]

theorem replaceAll_length (nonempty : pattern ≠ []) (replacement text : List α) :
    (replaceAll pattern replacement 0 text).length + disjointCount pattern 0 text * pattern.length =
      text.length + disjointCount pattern 0 text * replacement.length := by
  induction total : text.length using Nat.strongRecOn generalizing text with
  | ind size ih =>
      cases text with
      | nil => simpa [replaceAll, disjointCount] using total
      | cons first rest =>
          by_cases found : pattern <+: first :: rest
          · have positive := List.length_pos_iff.mpr nonempty
            have room := found.length_le
            have shorter : ((first :: rest).drop pattern.length).length < size := by
              rw [List.length_drop, total]
              omega
            have later := ih _ shorter _ rfl
            rw [List.length_drop] at later
            rw [disjointCount_found nonempty found, replaceAll_found replacement nonempty found,
              List.length_append, Nat.add_mul, Nat.add_mul]
            omega
          · have later := ih rest.length (by simp at total; omega) rest rfl
            rw [disjointCount_skipped found, replaceAll_skipped replacement found]
            simp only [List.length_cons] at total ⊢
            omega

theorem mem_replaceAll {replacement : List α} {skip : Nat} {text : List α} {element : α}
    (member : element ∈ replaceAll pattern replacement skip text) :
    element ∈ replacement ∨ element ∈ text := by
  induction text generalizing skip with
  | nil => simp [replaceAll] at member
  | cons first rest ih =>
      cases skip with
      | succ skip => exact (ih member).imp_right (List.mem_cons_of_mem first)
      | zero =>
          rw [replaceAll] at member
          split at member
          · rcases List.mem_append.mp member with inserted | later
            · exact Or.inl inserted
            · exact (ih later).imp_right (List.mem_cons_of_mem first)
          · rcases List.mem_cons.mp member with rfl | later
            · exact Or.inr List.mem_cons_self
            · exact (ih later).imp_right (List.mem_cons_of_mem first)

end Occurrence
