import Mathlib.Data.List.GetD
import SimpleProcessMonitor.StrCore

/-! What the comparisons of the ends of two strings decide. -/

namespace SimpleProcessMonitor

open CString

namespace Str

def CasePrefix (b a : Bytes) : Prop := b.map toupper <+: a.map toupper

def CaseSuffix (b a : Bytes) : Prop := b.map toupper <:+ a.map toupper

theorem toupper_ne_zero {char : UInt8} (nonzero : char ≠ 0) : toupper char ≠ 0 := by
  unfold toupper
  split
  · rename_i lower
    rw [UInt8.le_iff_toNat_le, UInt8.le_iff_toNat_le] at lower
    obtain ⟨above, below⟩ : 97 ≤ char.toNat ∧ char.toNat ≤ 122 := lower
    have large : 32 ≤ char := by
      rw [UInt8.le_iff_toNat_le]
      exact le_trans (by decide) above
    rw [Ne, ← UInt8.toNat_inj, UInt8.toNat_sub_of_le _ _ large]
    change char.toNat - 32 ≠ 0
    omega
  · exact nonzero

/-- An empty string is only found at the start of an empty one. -/
theorem startsWith_iff {a b : Bytes} (visibleA : 0 ∉ a) (visibleB : 0 ∉ b) :
    startsWith a b = true ↔ CasePrefix b a ∧ (b = [] → a = []) := by
  induction a generalizing b with
  | nil =>
      cases b with
      | nil => simp [startsWith, CasePrefix]
      | cons second b =>
          rw [List.mem_cons, not_or] at visibleB
          have different := toupper_ne_zero (Ne.symm visibleB.1)
          have zero : toupper 0 = 0 := rfl
          simp [startsWith, CasePrefix, zero, Ne.symm different]
  | cons first a ih =>
      rw [List.mem_cons, not_or] at visibleA
      cases b with
      | nil =>
          have different := toupper_ne_zero (Ne.symm visibleA.1)
          have zero : toupper 0 = 0 := rfl
          simp [startsWith, zero, different]
      | cons second b =>
          rw [List.mem_cons, not_or] at visibleB
          have later := ih visibleA.2 visibleB.2
          have equation : startsWith (first :: a) (second :: b) =
              if toupper first ≠ toupper second then false
              else if b = [] then true else startsWith a b := by
            rw [startsWith]
            rfl
          have whole : CasePrefix (second :: b) (first :: a) ↔
              toupper second = toupper first ∧ CasePrefix b a := List.cons_prefix_cons
          rw [equation, whole]
          by_cases same : toupper first = toupper second
          · by_cases last : b = []
            · simp [same, last, CasePrefix]
            · simp [same, last, later]
          · simp [same, Ne.symm same]

theorem caseSuffix_iff (b a : Bytes) :
    CaseSuffix b a ↔ b.length ≤ a.length ∧ ∀ k < b.length,
      toupper (a.getD (k + a.length - b.length) 0) = toupper (b.getD k 0) := by
  rw [CaseSuffix, List.suffix_iff_getElem?]
  simp only [List.length_map]
  refine and_congr_right fun shorter => forall_congr' fun k => forall_congr' fun inside => ?_
  have position : k + a.length - b.length < a.length := by omega
  rw [List.getElem?_map, List.getElem?_eq_getElem position, List.getElem_map, Option.map_some,
    Option.some.injEq, List.getD_eq_getElem _ _ position, List.getD_eq_getElem _ _ inside]

theorem caseSuffix_drop {b a : Bytes} (shorter : b.length ≤ a.length) :
    CaseSuffix (b.drop 1) a ↔ ∀ k, 0 < k → k < b.length →
      toupper (a.getD (k + a.length - b.length) 0) = toupper (b.getD k 0) := by
  have tail : ∀ k, (b.drop 1).getD k 0 = b.getD (k + 1) 0 := by
    intro k
    rw [List.getD_eq_getElem?_getD, List.getD_eq_getElem?_getD, List.getElem?_drop, Nat.add_comm 1 k]
  rw [caseSuffix_iff, List.length_drop]
  simp only [tail]
  constructor
  · rintro ⟨_, all⟩ k positive inside
    obtain ⟨k, rfl⟩ := Nat.exists_eq_succ_of_ne_zero positive.ne'
    have compared := all k (by omega)
    rwa [show k + a.length - (b.length - 1) = k.succ + a.length - b.length by omega] at compared
  · intro all
    refine ⟨by omega, ?_⟩
    intro k inside
    have compared := all (k + 1) (Nat.succ_pos k) (by omega)
    rwa [show k + 1 + a.length - b.length = k + a.length - (b.length - 1) by omega] at compared

theorem caseSuffix_head {b a : Bytes} (nonempty : b ≠ []) (shorter : b.length ≤ a.length) :
    CaseSuffix b a ↔ CaseSuffix (b.drop 1) a ∧
      toupper (a.getD (a.length - b.length) 0) = toupper (b.getD 0 0) := by
  have positive := List.length_pos_iff.mpr nonempty
  rw [caseSuffix_drop shorter, caseSuffix_iff]
  constructor
  · rintro ⟨_, all⟩
    have first := all 0 positive
    rw [Nat.zero_add] at first
    exact ⟨fun k _ inside => all k inside, first⟩
  · rintro ⟨later, first⟩
    refine ⟨shorter, ?_⟩
    intro k inside
    cases k with
    | zero =>
        rw [Nat.zero_add]
        exact first
    | succ k => exact later (k + 1) (Nat.succ_pos k) inside

theorem endsWithLoop_iff (a b : Bytes) (i j : Nat) :
    endsWithLoop a b i j = true ↔ j ≤ i ∧ ∀ k, 0 < k → k ≤ j →
      toupper (a.getD (k + i - j) 0) = toupper (b.getD k 0) := by
  induction i generalizing j with
  | zero =>
      cases j with
      | zero =>
          simp only [endsWithLoop, Nat.le_refl, decide_true, true_and, true_iff]
          intro k positive below
          omega
      | succ j => simp [endsWithLoop]
  | succ i ih =>
      cases j with
      | zero =>
          simp only [endsWithLoop, Nat.zero_le, decide_true, true_and, true_iff]
          intro k positive below
          omega
      | succ j =>
          have rest := ih j
          have shift : ∀ k, k + (i + 1) - (j + 1) = k + i - j := by
            intro k
            omega
          have last : j + 1 + i - j = i + 1 := by omega
          simp only [endsWithLoop, shift]
          by_cases same : toupper (a.getD (i + 1) 0) = toupper (b.getD (j + 1) 0)
          · rw [if_neg (not_not_intro same), rest]
            refine and_congr Nat.succ_le_succ_iff.symm ⟨?_, ?_⟩
            · intro all k positive below
              rcases Nat.le_succ_iff.mp below with below | rfl
              · exact all k positive below
              · rw [last]
                exact same
            · intro all k positive below
              exact all k positive (Nat.le_succ_of_le below)
          · rw [if_pos same]
            refine iff_of_false Bool.false_ne_true ?_
            rintro ⟨_, all⟩
            have atEnd := all (j + 1) (Nat.succ_pos j) (Nat.le_refl _)
            rw [last] at atEnd
            exact same atEnd

/-- The first character of the second string is never compared. -/
theorem endsWith_iff (a b : Bytes) :
    endsWith a b = true ↔ b.length ≤ a.length ∧ CaseSuffix (b.drop 1) a := by
  rw [endsWith, endsWithLoop_iff]
  refine and_congr_right fun shorter => ?_
  rw [caseSuffix_drop shorter]
  refine ⟨fun all k positive inside => ?_, fun all k positive below => ?_⟩
  · exact all k positive (Nat.le_of_lt inside)
  · rcases Nat.lt_or_eq_of_le below with inside | rfl
    · exact all k positive inside
    · rw [List.getD_eq_default _ _ (Nat.le_refl _), List.getD_eq_default _ _ (by omega)]

/-- Both comparisons are right, and they agree on the reversed strings. -/
def Compares (a b : Bytes) : Prop :=
  (endsWith a b = true ↔ CaseSuffix b a) ∧ (startsWith a b = true ↔ CasePrefix b a) ∧
    endsWith a b = startsWith a.reverse b.reverse

theorem compares_iff {a b : Bytes} (visibleA : 0 ∉ a) (visibleB : 0 ∉ b) :
    Compares a b ↔
      (b = [] → a = []) ∧
        (b ≠ [] → b.length ≤ a.length → CaseSuffix (b.drop 1) a →
          toupper (a.getD (a.length - b.length) 0) = toupper (b.getD 0 0)) := by
  have starts := startsWith_iff visibleA visibleB
  have ends := endsWith_iff a b
  constructor
  · rintro ⟨suffix, front, _⟩
    constructor
    · rintro rfl
      exact (starts.mp (front.mpr List.nil_prefix)).2 rfl
    · intro nonempty shorter tail
      exact ((caseSuffix_head nonempty shorter).mp (suffix.mp (ends.mpr ⟨shorter, tail⟩))).2
  · rintro ⟨empty, head⟩
    have suffix : endsWith a b = true ↔ CaseSuffix b a := by
      rw [ends]
      by_cases nonempty : b = []
      · subst b
        simp [CaseSuffix]
      · constructor
        · rintro ⟨shorter, tail⟩
          exact (caseSuffix_head nonempty shorter).mpr ⟨tail, head nonempty shorter tail⟩
        · intro whole
          have shorter := ((caseSuffix_iff b a).mp whole).1
          exact ⟨shorter, ((caseSuffix_head nonempty shorter).mp whole).1⟩
    have reversed : startsWith a.reverse b.reverse = true ↔ CaseSuffix b a := by
      rw [startsWith_iff (by simpa using visibleA) (by simpa using visibleB), CasePrefix,
        List.map_reverse, List.map_reverse, List.reverse_prefix, List.reverse_eq_nil_iff,
        List.reverse_eq_nil_iff]
      exact and_iff_left empty
    refine ⟨suffix, ?_, Bool.eq_iff_iff.mpr (suffix.trans reversed.symm)⟩
    rw [starts]
    exact and_iff_left empty

theorem compares_iff_sample : Compares [97, 98, 67] [66, 99] :=
  (compares_iff (by decide) (by decide)).mpr ⟨by decide, fun _ _ _ => by decide⟩

/-- `"abc"` is said to end with `"xbc"`, and `"a"` not to start with the empty string. -/
theorem first_character_ignored :
    endsWith [97, 98, 99] [120, 98, 99] = true ∧ ¬CaseSuffix [120, 98, 99] [97, 98, 99] ∧
      startsWith [97] [] = false ∧ CasePrefix [] [97] ∧
        ¬Compares [97, 98, 99] [120, 98, 99] ∧ ¬Compares [97] [] := by
  have suffix : ¬CaseSuffix [120, 98, 99] [97, 98, 99] := by
    unfold CaseSuffix
    decide
  refine ⟨by decide, suffix, by decide, List.nil_prefix, ?_, ?_⟩
  · rintro ⟨ends, _⟩
    exact suffix (ends.mp (by decide))
  · rintro ⟨_, starts, _⟩
    exact absurd (starts.mpr List.nil_prefix) (by decide)

end Str

end SimpleProcessMonitor
