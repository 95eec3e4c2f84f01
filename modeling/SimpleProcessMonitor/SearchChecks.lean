import SimpleProcessMonitor.Library.Occurrence
import SimpleProcessMonitor.StringBufferRunChecks

/-! What the searches in a string buffer find. -/

namespace SimpleProcessMonitor

open CString Occurrence

namespace StringBuffer

section Loops

variable {s : Bytes} (visible : 0 ∉ s)

include visible

theorem startsAt_drop {text : Bytes} {i : Nat} (inside : i ≤ text.length) (rest : Bytes) :
    startsAt s ((text ++ 0 :: rest).drop i) = some (decide (OccursAt s text i ∧ Ascii s)) := by
  rw [List.drop_append_of_le_length inside]
  exact startsAt_terminated visible (text.drop i) rest

theorem indexLoop_absent (foreign : ¬Ascii s) (text rest : Bytes) (i : Nat) :
    indexLoop s text.length i (text ++ 0 :: rest) = some (-1) := by
  induction text generalizing i with
  | nil => rfl
  | cons byte text ih =>
      rw [List.length_cons, indexLoop, startsAt_terminated visible]
      simp only [foreign, and_false, decide_false]
      exact ih (i + 1)

theorem indexLoop_first (nonempty : s ≠ []) (ascii : Ascii s) (text rest : Bytes) (i : Nat) :
    (∃ position : Nat, indexLoop s text.length i (text ++ 0 :: rest) = some ((i + position : Nat) : Int) ∧
        OccursAt s text position ∧ ∀ earlier < position, ¬OccursAt s text earlier) ∨
      (indexLoop s text.length i (text ++ 0 :: rest) = some (-1) ∧ ¬Occurs s text) := by
  induction text generalizing i with
  | nil =>
      refine Or.inr ⟨rfl, ?_⟩
      rintro ⟨index, occurs⟩
      exact not_occursAt_nil nonempty index occurs
  | cons byte text ih =>
      rw [List.length_cons, indexLoop, startsAt_terminated visible]
      by_cases found : s <+: byte :: text
      · refine Or.inl ⟨0, by simp [found, ascii], (occursAt_zero _).mpr found, ?_⟩
        intro earlier below
        omega
      · simp only [found, false_and, decide_false]
        rcases ih (i + 1) with ⟨position, result, occurs, least⟩ | ⟨result, absent⟩
        · refine Or.inl ⟨position + 1, ?_, (occursAt_succ byte text position).mpr occurs, ?_⟩
          · rw [show i + (position + 1) = i + 1 + position by omega]
            exact result
          · intro earlier below
            cases earlier with
            | zero => rwa [occursAt_zero]
            | succ earlier =>
                rw [occursAt_succ]
                exact least earlier (by omega)
        · refine Or.inr ⟨result, ?_⟩
          rw [occurs_cons, not_or]
          exact ⟨found, absent⟩

theorem lastIndexLoop_absent (foreign : ¬Ascii s) {text : Bytes} (rest : Bytes) {i : Nat}
    (inside : i ≤ text.length) : lastIndexLoop s (text ++ 0 :: rest) i = some (-1) := by
  induction i with
  | zero => rfl
  | succ i ih =>
      rw [lastIndexLoop, startsAt_drop visible (by omega)]
      simp only [foreign, and_false, decide_false]
      exact ih (by omega)

theorem lastIndexLoop_last (ascii : Ascii s) {text : Bytes} (rest : Bytes) {i : Nat}
    (inside : i ≤ text.length) :
    (∃ position : Nat, lastIndexLoop s (text ++ 0 :: rest) i = some (position : Int) ∧
        OccursAt s text position ∧
          ∀ later, position < later → later < i → ¬OccursAt s text later) ∨
      (lastIndexLoop s (text ++ 0 :: rest) i = some (-1) ∧
        ∀ position < i, ¬OccursAt s text position) := by
  induction i with
  | zero =>
      refine Or.inr ⟨rfl, ?_⟩
      intro position below
      omega
  | succ i ih =>
      rw [lastIndexLoop, startsAt_drop visible (by omega)]
      by_cases found : OccursAt s text i
      · refine Or.inl ⟨i, by simp [found, ascii], found, ?_⟩
        intro later above below
        omega
      · simp only [found, false_and, decide_false]
        rcases ih (by omega) with ⟨position, result, occurs, greatest⟩ | ⟨result, absent⟩
        · refine Or.inl ⟨position, result, occurs, ?_⟩
          intro later above below
          rcases Nat.lt_succ_iff_lt_or_eq.mp below with below | rfl
          · exact greatest later above below
          · exact found
        · refine Or.inr ⟨result, ?_⟩
          intro position below
          rcases Nat.lt_succ_iff_lt_or_eq.mp below with below | rfl
          · exact absent position below
          · exact found

end Loops

section Content

variable {S : StringBuffer} {text : Bytes} (represents : S.Represents text) {s : CText}
  (nonempty : s.bytes ≠ [])

include represents nonempty

theorem Represents.indexOf_first (ascii : Ascii s.bytes) :
    ∃ index, S.indexOf s = some index ∧ IsFirst s.bytes text index := by
  obtain ⟨rest, stored⟩ := represents.stored
  rw [indexOf, if_neg nonempty, stored, represents.used]
  rcases indexLoop_first s.visible nonempty ascii text rest 0 with
    ⟨position, result, occurs, least⟩ | ⟨result, absent⟩
  · rw [Nat.zero_add] at result
    exact ⟨_, result, Or.inl ⟨position, rfl, occurs, least⟩⟩
  · exact ⟨_, result, Or.inr ⟨rfl, absent⟩⟩

theorem Represents.lastIndexOf_last (ascii : Ascii s.bytes) :
    ∃ index, S.lastIndexOf s = some index ∧ IsLast s.bytes text index := by
  obtain ⟨rest, stored⟩ := represents.stored
  rw [lastIndexOf, if_neg nonempty, stored, represents.used]
  have outside : ∀ later, text.length ≤ later → ¬OccursAt s.bytes text later := by
    intro later above occurs
    have room := occurs.room nonempty
    have positive := List.length_pos_iff.mpr nonempty
    omega
  rcases lastIndexLoop_last s.visible ascii rest (Nat.le_refl text.length) with
    ⟨position, result, occurs, greatest⟩ | ⟨result, absent⟩
  · refine ⟨_, result, Or.inl ⟨position, rfl, occurs, ?_⟩⟩
    intro later above
    rcases Nat.lt_or_ge later text.length with below | beyond
    · exact greatest later above below
    · exact outside later beyond
  · refine ⟨_, result, Or.inr ⟨rfl, ?_⟩⟩
    rintro ⟨index, occurs⟩
    rcases Nat.lt_or_ge index text.length with below | beyond
    · exact absent index below occurs
    · exact outside index beyond occurs

theorem Represents.search_foreign (foreign : ¬Ascii s.bytes) :
    S.indexOf s = some (-1) ∧ S.lastIndexOf s = some (-1) := by
  obtain ⟨rest, stored⟩ := represents.stored
  rw [indexOf, lastIndexOf, if_neg nonempty, if_neg nonempty, stored, represents.used]
  exact ⟨indexLoop_absent s.visible foreign text rest 0,
    lastIndexLoop_absent s.visible foreign rest (Nat.le_refl _)⟩

end Content

/-- A string with a byte from 128 on is never found, wherever it occurs. -/
theorem indexOf_lastIndexOf_iff (memory : RawMemory) {S : StringBuffer} {text : Bytes}
    (represents : S.Represents text) {s : CText} (nonempty : s.bytes ≠ []) :
    ((∃ index, S.indexOf s = some index ∧ IsFirst s.bytes text index) ∧
          (∃ index, S.lastIndexOf s = some index ∧ IsLast s.bytes text index) ↔
        Ascii s.bytes ∨ ¬Occurs s.bytes text) ∧
      ((∃ index, (S.appendFormat memory (.string s)).indexOf s = some index ∧ 0 ≤ index) ↔
        Ascii s.bytes) := by
  have appended := represents.appendFormat memory (.string s)
  have member : Occurs s.bytes (text ++ s.bytes) := ⟨text.length, by simp [OccursAt]⟩
  by_cases ascii : Ascii s.bytes
  · refine ⟨iff_of_true ⟨?_, ?_⟩ (Or.inl ascii), iff_of_true ?_ ascii⟩
    · exact represents.indexOf_first nonempty ascii
    · exact represents.lastIndexOf_last nonempty ascii
    · obtain ⟨index, result, first⟩ := appended.indexOf_first nonempty ascii
      exact ⟨index, result, first.occurs_iff.mp member⟩
  · obtain ⟨first, last⟩ := represents.search_foreign nonempty ascii
    have unfound := (appended.search_foreign nonempty ascii).1
    refine ⟨⟨?_, ?_⟩, iff_of_false ?_ ascii⟩
    · rintro ⟨⟨index, result, isFirst⟩, _⟩
      rw [first] at result
      obtain rfl := Option.some.inj result
      refine Or.inr fun occurs => ?_
      have positive := isFirst.occurs_iff.mp occurs
      omega
    · rintro (plain | absent)
      · exact absurd plain ascii
      · exact ⟨⟨-1, first, Or.inr ⟨rfl, absent⟩⟩, ⟨-1, last, Or.inr ⟨rfl, absent⟩⟩⟩
    · rintro ⟨index, result, positive⟩
      rw [unfound] at result
      have none : -1 = index := Option.some.inj result
      omega

def letterText : CText := ⟨[120], by decide⟩

/-- `"\xE9"`, as a user name or a path may hold it. -/
def foreignText : CText := ⟨[233], by decide⟩

def threeLetters : StringBuffer := ⟨3, 4, [120, 121, 120, 0]⟩

theorem indexOf_lastIndexOf_iff_sample :
    ((∃ index, threeLetters.indexOf letterText = some index ∧
          IsFirst letterText.bytes [120, 121, 120] index) ∧
        ∃ index, threeLetters.lastIndexOf letterText = some index ∧
          IsLast letterText.bytes [120, 121, 120] index) ∧
      ¬∃ index, (threeLetters.appendFormat (fun _ _ => 0) (.string foreignText)).indexOf foreignText =
          some index ∧ 0 ≤ index := by
  have represents : threeLetters.Represents [120, 121, 120] := ⟨rfl, rfl, ⟨[], rfl⟩, by decide⟩
  constructor
  · have ascii : Ascii letterText.bytes := by decide
    exact (indexOf_lastIndexOf_iff (fun _ _ => 0) represents (List.cons_ne_nil _ _)).1.mpr
      (Or.inl ascii)
  · have foreign : ¬Ascii foreignText.bytes := by decide
    exact (indexOf_lastIndexOf_iff (fun _ _ => 0) represents (List.cons_ne_nil _ _)).2.not.mpr foreign

theorem indexOf_misses :
    OccursAt foreignText.bytes foreignText.bytes 0 ∧
      (new (fun _ _ => 0) foreignText).toString = foreignText.bytes ∧
      (new (fun _ _ => 0) foreignText).indexOf foreignText = some (-1) ∧
      ¬∃ index, (new (fun _ _ => 0) foreignText).indexOf foreignText = some index ∧
        IsFirst foreignText.bytes foreignText.bytes index := by
  have represents := new_represents (fun _ _ => 0) foreignText
  have occurs : OccursAt foreignText.bytes foreignText.bytes 0 := List.prefix_refl _
  have foreign : ¬Ascii foreignText.bytes := by decide
  have unfound := (represents.search_foreign (List.cons_ne_nil _ _) foreign).1
  refine ⟨occurs, represents.toString, unfound, ?_⟩
  rintro ⟨index, result, first⟩
  rw [unfound] at result
  obtain rfl := Option.some.inj result
  have positive := first.occurs_iff.mp ⟨0, occurs⟩
  omega

end StringBuffer

end SimpleProcessMonitor
