import Mathlib.Data.Nat.ModEq
import SimpleProcessMonitor.Library.Occurrence
import SimpleProcessMonitor.StringBufferRunChecks

/-!
`StringBuffer_replace`: the first loop counts every occurrence, the second exchanges as many
as were counted, each behind the one before.
-/

namespace SimpleProcessMonitor

open CString Occurrence

namespace StringBuffer

theorem countMatches_terminated {a : Bytes} (visible : 0 ∉ a) {text : Bytes}
    (textVisible : 0 ∉ text) (rest : Bytes) :
    countMatches a (text ++ 0 :: rest) = some (if Ascii a then count a text else 0) := by
  induction text with
  | nil => simp [countMatches, count]
  | cons byte text ih =>
      rw [List.mem_cons, not_or] at textVisible
      have compared := startsAt_terminated visible (byte :: text) rest
      rw [List.cons_append] at compared
      rw [List.cons_append, countMatches, if_neg (Ne.symm textVisible.1), compared,
        ih textVisible.2]
      by_cases ascii : Ascii a
      · by_cases found : a <+: byte :: text
        · simp [ascii, found, count, Nat.add_comm]
        · simp [ascii, found, count]
      · simp [ascii]

/-! The sizes of what is replaced. -/

section Sizes

variable {a b text : Bytes}

theorem disjointCount_mul_le (nonempty : a ≠ []) :
    disjointCount a 0 text * a.length ≤ text.length := by
  have sizes := replaceAll_length nonempty [] text
  rw [List.length_nil, Nat.mul_zero] at sizes
  omega

theorem length_le_replaceAll (nonempty : a ≠ []) (longer : a.length ≤ b.length) :
    text.length ≤ (replaceAll a b 0 text).length := by
  have sizes := replaceAll_length nonempty b text
  have more := Nat.mul_le_mul_left (disjointCount a 0 text) longer
  omega

theorem replacement_le (nonempty : a ≠ []) (occurs : 0 < disjointCount a 0 text) :
    b.length ≤ (replaceAll a b 0 text).length := by
  have sizes := replaceAll_length nonempty b text
  have room : disjointCount a 0 text * a.length ≤ text.length := disjointCount_mul_le nonempty
  have once := Nat.le_mul_of_pos_left b.length occurs
  omega

/-- The difference of the sizes may have wrapped around, but what is required has not. -/
theorem required_eq (nonempty : a ≠ []) (short : a.length ≤ 2 ^ 64)
    (fits : (replaceAll a b 0 text).length + 1 < 2 ^ 64) :
    ((b.length + 2 ^ 64 - a.length) % 2 ^ 64 * disjointCount a 0 text + text.length + 1) % 2 ^ 64 =
      (replaceAll a b 0 text).length + 1 := by
  have sizes := replaceAll_length nonempty b text
  have difference : (b.length + 2 ^ 64 - a.length) % 2 ^ 64 + a.length ≡ b.length [MOD 2 ^ 64] := by
    rw [Nat.ModEq]
    omega
  generalize (b.length + 2 ^ 64 - a.length) % 2 ^ 64 = diff at difference ⊢
  generalize disjointCount a 0 text = n at sizes ⊢
  generalize (replaceAll a b 0 text).length = replaced at sizes fits ⊢
  have total : diff * n + text.length + 1 + n * a.length ≡ replaced + 1 + n * a.length [MOD 2 ^ 64] := by
    calc diff * n + text.length + 1 + n * a.length
      _ = (diff + a.length) * n + (text.length + 1) := by ring
      _ ≡ b.length * n + (text.length + 1) [MOD 2 ^ 64] :=
          (difference.mul_right n).add_right (text.length + 1)
      _ = replaced + 1 + n * a.length := by
          rw [Nat.mul_comm b.length]
          omega
  rw [Nat.ModEq.add_right_cancel' (n * a.length) total]
  exact Nat.mod_eq_of_lt fits

end Sizes

theorem wrapSigned_small {value : Nat} (small : value < 2 ^ 31) : wrapSigned 32 value = value := by
  unfold wrapSigned
  omega

theorem resizeInt_eq (memory : RawMemory) {S : StringBuffer} {text : Bytes} (holds : S.Holds text)
    {required : Nat} (larger : S.length ≤ required) (small : required < 2 ^ 31) :
    resizeInt memory S required = some (S.resize memory required) := by
  have room := holds.room
  have size := (holds.resize memory larger).size
  have whole : (S.resize memory required).buffer.take required =
      (S.resize memory required).buffer := List.take_of_length_le size.le
  rw [resizeInt, wrapSigned_small small, if_pos (by omega)]
  simp only [Int.toNat_natCast, whole]

theorem growFor_holds (memory : RawMemory) {S : StringBuffer} {text : Bytes}
    (holds : S.Holds text) (int : S.length < 2 ^ 31) {a b : Bytes} (nonempty : a ≠ [])
    (occurs : 0 < disjointCount a 0 text) (fits : (replaceAll a b 0 text).length + 1 < 2 ^ 31) :
    ∃ grown, growFor memory S a b (disjointCount a 0 text) = some grown ∧ grown.Holds text ∧
      (replaceAll a b 0 text).length < grown.length ∧ grown.length < 2 ^ 31 := by
  have used := holds.used
  have room := holds.room
  have sizes := replaceAll_length nonempty b text
  have replacement := replacement_le (b := b) nonempty occurs
  have pattern : a.length ≤ text.length :=
    (Nat.le_mul_of_pos_left a.length occurs).trans (disjointCount_mul_le nonempty)
  have required := @required_eq a b text nonempty (by omega) (by omega)
  rw [growFor]
  simp only [used, required]
  split
  · split
    · rename_i larger
      exact ⟨_, resizeInt_eq memory holds larger fits, holds.resize memory larger,
        Nat.lt_succ_self _, fits⟩
    · exact ⟨S, rfl, holds, by omega, int⟩
  · have same : b.length = a.length := by omega
    rw [same] at sizes
    exact ⟨S, rfl, holds, by omega, int⟩

/-! The second loop. -/

section Exchanges

variable {a b : Bytes}

theorem exchange_holds {S : StringBuffer} {done behind : Bytes}
    (holds : S.Holds (done ++ (a ++ behind)))
    (fits : done.length + b.length + behind.length < S.length) :
    ∃ result, exchange a b done.length S = some result ∧ result.Holds (done ++ b ++ behind) ∧
      result.length = S.length := by
  obtain ⟨tail, front⟩ := holds.front
  have used := holds.used
  have size := holds.size
  rw [List.length_append, List.length_append] at used
  have rest : S.used - (done.length + a.length) = behind.length := by omega
  have inside : done.length + a.length + behind.length ≤ S.buffer.length := by
    simp only [front, List.length_append]
    omega
  have before : S.buffer.take done.length = done := by
    rw [front, List.append_assoc, List.take_left]
  have moved : (S.buffer.drop (done.length + a.length)).take behind.length = behind := by
    rw [front, ← List.drop_drop, List.append_assoc, List.drop_left, List.append_assoc,
      List.drop_left, List.take_left]
  have target : done.length + b.length + behind.length ≤ S.buffer.length := by omega
  have stored := Block.move_store_iff.mpr ⟨inside, target, rfl⟩
  rw [before, moved] at stored
  have exchanged : exchange a b done.length S = some { S with
      used := S.used + b.length - a.length
      buffer := done ++ b ++ behind ++ S.buffer.drop (done.length + b.length + behind.length) } := by
    rw [exchange, if_neg (by omega), rest, stored]
    rfl
  have newUsed : S.used + b.length - a.length = (done ++ b ++ behind).length := by
    simp only [List.length_append]
    omega
  refine ⟨_, exchanged, ⟨newUsed, (exchange_length exchanged).2.trans size, ?_, _, rfl⟩, rfl⟩
  rw [newUsed, List.length_append, List.length_append]
  exact fits

theorem replaceLoop_match {m i : Nat} {S : StringBuffer}
    (found : startsAt a (S.buffer.drop i) = some true) :
    replaceLoop a b (m + 1) i S = (exchange a b i S).bind (replaceLoop a b m (i + b.length)) := by
  rw [replaceLoop]
  split
  · simp_all
  · simp_all
  · cases exchange a b i S <;> rfl

theorem replaceLoop_skip {m i : Nat} {S : StringBuffer}
    (different : startsAt a (S.buffer.drop i) = some false) :
    replaceLoop a b (m + 1) i S = replaceLoop a b (m + 1) (i + 1) S := by
  rw [replaceLoop]
  split
  · simp_all
  · rfl
  · simp_all

section Rounds

variable {S : StringBuffer} {done : Bytes}

/-- Within the text the comparison never looks at what stands behind it. -/
theorem startsAt_holds (ascii : Ascii a) {text : Bytes} (holds : S.Holds (done ++ text))
    (room : a.length ≤ text.length) :
    startsAt a (S.buffer.drop done.length) = some (decide (a <+: text)) := by
  obtain ⟨tail, front⟩ := holds.front
  rw [front, List.append_assoc, List.drop_left, startsAt_append room]
  simp [ascii]

theorem replaceLoop_found (ascii : Ascii a) {behind : Bytes}
    (holds : S.Holds (done ++ (a ++ behind)))
    (fits : done.length + b.length + behind.length < S.length) (m : Nat) :
    ∃ next, replaceLoop a b (m + 1) done.length S = replaceLoop a b m (done ++ b).length next ∧
      next.Holds (done ++ b ++ behind) ∧ next.length = S.length := by
  have compared := startsAt_holds ascii holds (by simp)
  rw [decide_eq_true (List.prefix_append a behind)] at compared
  obtain ⟨next, exchanged, kept, length⟩ := exchange_holds holds fits
  refine ⟨next, ?_, kept, length⟩
  rw [replaceLoop_match compared, exchanged, Option.bind_some, List.length_append]

theorem replaceLoop_passed (ascii : Ascii a) {first : UInt8} {rest : Bytes}
    (holds : S.Holds (done ++ first :: rest)) (room : a.length ≤ (first :: rest).length)
    (absent : ¬a <+: first :: rest) (m : Nat) :
    replaceLoop a b (m + 1) done.length S =
      replaceLoop a b (m + 1) (done ++ [first]).length S := by
  have compared := startsAt_holds ascii holds room
  rw [decide_eq_false absent] at compared
  rw [replaceLoop_skip compared, List.length_append, List.length_singleton]

end Rounds

theorem replaceLoop_replaces (nonempty : a ≠ []) (ascii : Ascii a) (text : Bytes)
    {S : StringBuffer} {done : Bytes} (holds : S.Holds (done ++ text))
    (fits : done.length + (replaceAll a b 0 text).length < S.length) :
    ∃ result, replaceLoop a b (disjointCount a 0 text) done.length S = some result ∧
      result.Holds (done ++ replaceAll a b 0 text) ∧ result.length = S.length := by
  induction total : text.length using Nat.strongRecOn generalizing text S done with
  | ind size ih =>
      rcases Nat.eq_zero_or_pos (disjointCount a 0 text) with absent | occurs
      · rw [replaceAll_absent b absent, absent, replaceLoop]
        exact ⟨S, rfl, holds, rfl⟩
      · have positive := List.length_pos_iff.mpr nonempty
        -- While a match is left, the comparisons stay within the text.
        have room : a.length ≤ text.length :=
          (Nat.le_mul_of_pos_left a.length occurs).trans (disjointCount_mul_le nonempty)
        by_cases found : a <+: text
        · obtain ⟨behind, rfl⟩ := found
          rw [disjointCount_match nonempty]
          rw [replaceAll_match nonempty, List.length_append] at fits
          rw [replaceAll_match nonempty, ← List.append_assoc]
          have used := holds.used
          have free := holds.room
          simp only [List.length_append] at used total
          have enough : done.length + b.length + behind.length < S.length := by
            -- In between, the text is at most as long as before or after all the exchanges.
            rcases Nat.le_total a.length b.length with longer | shorter
            · have grown : behind.length ≤ (replaceAll a b 0 behind).length :=
                length_le_replaceAll nonempty longer
              omega
            · omega
          obtain ⟨next, step, kept, length⟩ := replaceLoop_found ascii holds enough _
          obtain ⟨result, loop, replaced, length'⟩ := ih behind.length (by omega) behind kept
            (by rw [List.length_append]; omega) rfl
          exact ⟨result, step.trans loop, replaced, length'.trans length⟩
        · obtain ⟨first, rest, rfl⟩ : ∃ first rest, text = first :: rest :=
            List.exists_cons_of_length_pos (by omega)
          have passed := replaceLoop_passed (b := b) ascii holds room found (disjointCount a 0 rest - 1)
          rw [disjointCount_skipped found] at occurs ⊢
          rw [replaceAll_skipped b found, List.length_cons] at fits
          rw [Nat.sub_add_cancel occurs] at passed
          rw [List.length_cons] at total
          rw [List.append_cons] at holds
          obtain ⟨result, loop, replaced, length⟩ := ih rest.length (by omega) rest holds
            (by rw [List.length_append, List.length_singleton]; omega) rfl
          refine ⟨result, passed.trans loop, ?_, length⟩
          rw [replaceAll_skipped b found, List.append_cons]
          exact replaced

end Exchanges

/-- The call returns the number of the occurrences that do not overlap, and leaves the text
with these replaced. -/
def Replaces (memory : RawMemory) (S : StringBuffer) (text : Bytes) (a b : CText) : Prop :=
  ∃ result, replace memory S a b = some (disjointCount a.bytes 0 text, result) ∧
    result.Represents (replaceAll a.bytes b.bytes 0 text) ∧ result.length < 2 ^ 31

section Calls

variable (memory : RawMemory) {S : StringBuffer} {text : Bytes} {a b : CText}

theorem Represents.countMatches (represents : S.Represents text) :
    StringBuffer.countMatches a.bytes S.buffer =
      some (if Ascii a.bytes then count a.bytes text else 0) := by
  obtain ⟨rest, stored⟩ := represents.stored
  rw [stored, countMatches_terminated a.visible represents.visible]

theorem Represents.replace_count (represents : S.Represents text) (nonempty : a.bytes ≠ [])
    {n : Nat} {result : StringBuffer} (replaced : replace memory S a b = some (n, result)) :
    n = if Ascii a.bytes then count a.bytes text else 0 := by
  rw [replace, if_neg nonempty, represents.countMatches, Option.bind_eq_bind,
    Option.bind_some] at replaced
  generalize (if Ascii a.bytes then count a.bytes text else 0) = counted at replaced ⊢
  split at replaced
  · rename_i none
    cases replaced
    exact none.symm
  · simp only [Option.bind_eq_bind, Option.bind_eq_some_iff] at replaced
    obtain ⟨grown, _, looped, _, buffer, _, returned⟩ := replaced
    cases returned
    rfl

theorem Represents.replaces_absent (represents : S.Represents text) (int : S.length < 2 ^ 31)
    (nonempty : a.bytes ≠ []) (absent : disjointCount a.bytes 0 text = 0)
    (uncounted : ¬Ascii a.bytes ∨ count a.bytes text = 0) : Replaces memory S text a b := by
  refine ⟨S, ?_, ?_, int⟩
  · rw [replace, if_neg nonempty, represents.countMatches, absent]
    rcases uncounted with foreign | none
    · simp [foreign]
    · simp [none]
  · rw [replaceAll_absent b.bytes absent]
    exact represents

theorem Represents.replaces_occurs (represents : S.Represents text) (int : S.length < 2 ^ 31)
    (nonempty : a.bytes ≠ []) (ascii : Ascii a.bytes) (disjoint : Disjoint a.bytes text)
    (occurs : 0 < disjointCount a.bytes 0 text)
    (fits : (replaceAll a.bytes b.bytes 0 text).length + 1 < 2 ^ 31) :
    Replaces memory S text a b := by
  have counted : count a.bytes text = disjointCount a.bytes 0 text :=
    ((disjointCount_eq_iff nonempty 0 text).mpr ⟨by omega, disjoint⟩).symm
  obtain ⟨grown, growth, holds, enough, small⟩ :=
    growFor_holds memory represents.holds int nonempty occurs fits
  obtain ⟨replaced, loop, kept, length⟩ :=
    @replaceLoop_replaces _ b.bytes nonempty ascii text grown [] holds (by simpa using enough)
  rw [List.nil_append] at kept
  obtain ⟨behind, buffer⟩ := kept.front
  have size := kept.size
  have room := kept.room
  have used := kept.used
  obtain ⟨byte, behind, rfl⟩ : ∃ byte rest, behind = byte :: rest := by
    refine List.exists_cons_of_length_pos ?_
    rw [buffer, List.length_append] at size
    omega
  refine ⟨{ replaced with
      buffer := replaceAll a.bytes b.bytes 0 text ++ 0 :: behind }, ?_, ?_, length ▸ small⟩
  · have terminated : Block.write replaced.buffer replaced.used 0 =
        some (replaceAll a.bytes b.bytes 0 text ++ 0 :: behind) := by
      rw [buffer, used]
      exact Block.write_middle _ behind byte 0
    rw [replace, if_neg nonempty, represents.countMatches, if_pos ascii, counted]
    rw [List.length_nil] at loop
    simp [occurs.ne', growth, loop, terminated]
  · refine ⟨used, ?_, ⟨behind, rfl⟩, ?_⟩
    · rw [← size, buffer]
      simp
    · intro member
      exact (mem_replaceAll member).elim b.visible represents.visible

/-- A pattern that overlaps itself in the text is counted more often than it can be replaced,
and one with a byte from 128 on is not found. -/
theorem replace_iff (represents : S.Represents text) (int : S.length < 2 ^ 31)
    (nonempty : a.bytes ≠ []) :
    Replaces memory S text a b ↔
      Disjoint a.bytes text ∧ (Ascii a.bytes ∨ ¬Occurs a.bytes text) ∧
        (replaceAll a.bytes b.bytes 0 text).length + 1 < 2 ^ 31 := by
  have overlaps := disjointCount_eq_iff nonempty 0 text
  constructor
  · rintro ⟨result, replaced, holds, small⟩
    have counted := represents.replace_count memory nonempty replaced
    have room := holds.holds.room
    have used := holds.used
    by_cases ascii : Ascii a.bytes
    · rw [if_pos ascii] at counted
      exact ⟨(overlaps.mp counted).2, Or.inl ascii, by omega⟩
    · rw [if_neg ascii] at counted
      have absent : ¬Occurs a.bytes text := by
        rw [← disjointCount_pos_iff nonempty, counted]
        exact Nat.lt_irrefl 0
      refine ⟨?_, Or.inr absent, by omega⟩
      intro first _ _ atFirst
      exact absurd ⟨first, atFirst⟩ absent
  · rintro ⟨disjoint, plain, fits⟩
    have counted := overlaps.mpr ⟨by omega, disjoint⟩
    rcases Nat.eq_zero_or_pos (disjointCount a.bytes 0 text) with absent | occurs
    · exact represents.replaces_absent memory int nonempty absent (Or.inr (counted ▸ absent))
    · have occursText := (disjointCount_pos_iff nonempty text).mp occurs
      have ascii := plain.resolve_right (not_not_intro occursText)
      exact represents.replaces_occurs memory int nonempty ascii disjoint occurs fits

end Calls

def singleLetter : CText := ⟨[99], by decide⟩

def doubleLetter : CText := ⟨[97, 97], by decide⟩

def otherLetter : CText := ⟨[98], by decide⟩

theorem replace_iff_sample :
    Replaces (fun _ _ => 0) ⟨3, 4, [99, 98, 99, 0]⟩ [99, 98, 99] singleLetter otherLetter := by
  have represents : Represents ⟨3, 4, [99, 98, 99, 0]⟩ [99, 98, 99] :=
    ⟨rfl, rfl, ⟨[], rfl⟩, by decide⟩
  have ascii : Ascii singleLetter.bytes := by decide
  refine (replace_iff _ represents (by decide) (List.cons_ne_nil _ _)).mpr
    ⟨?_, Or.inl ascii, by decide⟩
  intro first second ordered _ _
  exact ordered

/-- `"aa"` in `"aaa"` is counted twice, and the second move has the length -1. -/
theorem replace_overlapping :
    replace (fun _ _ => 0) ⟨3, 4, [97, 97, 97, 0]⟩ doubleLetter otherLetter = none ∧
      ¬Replaces (fun _ _ => 0) ⟨3, 4, [97, 97, 97, 0]⟩ [97, 97, 97] doubleLetter otherLetter := by
  have counted : countMatches doubleLetter.bytes [97, 97, 97, 0] = some 2 := by decide
  have grown : growFor (fun _ _ => 0) ⟨3, 4, [97, 97, 97, 0]⟩ doubleLetter.bytes
      otherLetter.bytes 2 = some ⟨3, 4, [97, 97, 97, 0]⟩ := by
    simp [growFor, doubleLetter, otherLetter]
  have exchanged : exchange doubleLetter.bytes otherLetter.bytes 0 ⟨3, 4, [97, 97, 97, 0]⟩ =
      some ⟨2, 4, [98, 97, 97, 0]⟩ := rfl
  have beyond : exchange doubleLetter.bytes otherLetter.bytes (0 + otherLetter.bytes.length)
      ⟨2, 4, [98, 97, 97, 0]⟩ = none := rfl
  have looped : replaceLoop doubleLetter.bytes otherLetter.bytes 2 0 ⟨3, 4, [97, 97, 97, 0]⟩ =
      none := by
    rw [replaceLoop_match (by decide), exchanged, Option.bind_some, replaceLoop_match (by decide),
      beyond, Option.bind_none]
  have failed : replace (fun _ _ => 0) ⟨3, 4, [97, 97, 97, 0]⟩ doubleLetter otherLetter = none := by
    have nonempty : doubleLetter.bytes ≠ [] := List.cons_ne_nil _ _
    simp [replace, nonempty, counted, grown, looped]
  refine ⟨failed, ?_⟩
  rintro ⟨result, replaced, _⟩
  rw [failed] at replaced
  cases replaced

end StringBuffer

end SimpleProcessMonitor
