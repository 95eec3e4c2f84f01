import SimpleProcessMonitor.StrEditCore
import SimpleProcessMonitor.StringBufferEditCore

/-! What the comparisons of two strings decide. -/

namespace SimpleProcessMonitor

open CString

namespace Str

theorem equalLoop_iff (fold : UInt8 → UInt8) {a b : Bytes} (visibleA : 0 ∉ a) (visibleB : 0 ∉ b) :
    equalLoop fold a b = true ↔ a.map fold = b.map fold := by
  induction a generalizing b with
  | nil =>
      cases b with
      | nil => exact iff_of_true rfl rfl
      | cons second b =>
          rw [List.mem_cons, not_or] at visibleB
          simp [equalLoop, visibleB.1]
  | cons first a ih =>
      rw [List.mem_cons, not_or] at visibleA
      cases b with
      | nil => simp [equalLoop, Ne.symm visibleA.1]
      | cons second b =>
          rw [List.mem_cons, not_or] at visibleB
          rw [equalLoop, List.map_cons, List.map_cons, List.cons.injEq, ← ih visibleA.2 visibleB.2]
          by_cases same : fold first = fold second
          · simp [same]
          · simp [same]

theorem promoted_inj {first second : UInt8} (same : promoted first = promoted second) :
    first = second := by
  have values := congrArg BitVec.toInt same
  have firstBound := first.toNat_lt
  have secondBound := second.toNat_lt
  simp only [promoted, BitVec.toInt_ofInt, promoteChar] at values
  rw [← UInt8.toNat_inj]
  split at values <;> split at values <;> simp [Int.bmod] at values <;> omega

theorem differences_zero_iff (rv : BitVec 32) {x y : Bytes} (lengths : x.length = y.length) :
    differences rv x y = 0#32 ↔ rv = 0#32 ∧ x = y := by
  induction x generalizing rv y with
  | nil =>
      cases y with
      | nil => simp [differences]
      | cons second y => cases lengths
  | cons first x ih =>
      cases y with
      | nil => cases lengths
      | cons second y =>
          rw [differences, ih _ (Nat.succ.inj lengths), BitVec.or_eq_zero_iff, BitVec.xor_eq_zero_iff,
            List.cons.injEq, and_assoc]
          refine and_congr_right fun _ => and_congr_left fun _ => ?_
          exact ⟨promoted_inj, congrArg promoted⟩

theorem compareBuffer_length (text : Bytes) : (compareBuffer text).length = 65 := by
  simp only [compareBuffer, compareConstantTimeStringLength, List.length_append, List.length_take,
    List.length_replicate]
  omega

theorem compareBuffer_text {text : Bytes} (visible : 0 ∉ text) (short : text.length ≤ 64) :
    cString (compareBuffer text) = text := by
  have printed : text.take compareConstantTimeStringLength = text := List.take_of_length_le short
  have zeros : List.replicate (compareConstantTimeStringLength + 1 - text.length) (0 : UInt8) =
      0 :: List.replicate (64 - text.length) 0 := by
    rw [← List.replicate_succ]
    congr 1
    change 64 + 1 - text.length = 64 - text.length + 1
    omega
  rw [compareBuffer, printed, zeros]
  exact cString_ended visible _

/-- The text of a string, where `NULL` counts as the empty one. -/
def textOf (string : Option CText) : Bytes := (string.map CText.bytes).getD []

theorem textOf_visible (string : Option CText) : 0 ∉ textOf string := by
  cases string with
  | none => exact List.not_mem_nil
  | some text => exact text.visible

theorem equalStrings_iff (fold : UInt8 → UInt8) (a b : Option CText) :
    equalStrings fold (a.map CText.bytes) (b.map CText.bytes) = true ↔
      (a.isSome ∧ b.isSome) ∧ (textOf a).map fold = (textOf b).map fold := by
  cases a with
  | none => simp [equalStrings]
  | some a =>
      cases b with
      | none => simp [equalStrings]
      | some b =>
          refine (equalLoop_iff fold a.visible b.visible).trans ?_
          exact (and_iff_right ⟨rfl, rfl⟩).symm

theorem compareConstantTime_zero_iff (x y : Option CText) :
    compareConstantTime (x.map CText.bytes) (y.map CText.bytes) = 0 ↔
      textOf x = textOf y ∧ (textOf x).length ≤ 64 := by
  have visibleX := textOf_visible x
  have visibleY := textOf_visible y
  unfold compareConstantTime
  change (if compareConstantTimeStringLength < (textOf x).length ∨
      compareConstantTimeStringLength < (textOf y).length then 1
    else (differences 0#32 (compareBuffer (textOf x)) (compareBuffer (textOf y))).toInt) = 0 ↔ _
  by_cases long : compareConstantTimeStringLength < (textOf x).length ∨
      compareConstantTimeStringLength < (textOf y).length
  · rw [if_pos long]
    refine iff_of_false (by decide) ?_
    rintro ⟨same, short⟩
    rcases long with long | long
    · exact absurd long (not_lt.mpr short)
    · exact absurd long (not_lt.mpr (same ▸ short))
  · have lengths : (compareBuffer (textOf x)).length = (compareBuffer (textOf y)).length := by
      rw [compareBuffer_length, compareBuffer_length]
    have zero (rv : BitVec 32) : rv.toInt = 0 ↔ rv = 0#32 := by
      rw [← BitVec.toInt_inj, BitVec.toInt_zero]
    rw [if_neg long, zero, differences_zero_iff _ lengths]
    rw [not_or, not_lt, not_lt] at long
    constructor
    · rintro ⟨-, same⟩
      have texts := congrArg cString same
      rw [compareBuffer_text visibleX long.1, compareBuffer_text visibleY long.2] at texts
      exact ⟨texts, long.1⟩
    · rintro ⟨same, -⟩
      exact ⟨rfl, congrArg compareBuffer same⟩

/-- In constant time `NULL` is equal to itself and to the empty string, and a string of more
than 64 bytes differs from every string, also from itself. The strings are shorter than 2^31
bytes, as in `compareConstantTime`. -/
theorem comparisons_decide (a b : Option CText) :
    (isByteEqual (a.map CText.bytes) (b.map CText.bytes) = true ↔
        (a.isSome ∧ b.isSome) ∧ textOf a = textOf b) ∧
      (isEqual (a.map CText.bytes) (b.map CText.bytes) = true ↔
        (a.isSome ∧ b.isSome) ∧ (textOf a).map toupper = (textOf b).map toupper) ∧
      (compareConstantTime (a.map CText.bytes) (b.map CText.bytes) = 0 ↔
        textOf a = textOf b ∧ (textOf a).length ≤ 64) := by
  refine ⟨?_, equalStrings_iff toupper a b, compareConstantTime_zero_iff a b⟩
  have bytewise := equalStrings_iff id a b
  rwa [List.map_id, List.map_id] at bytewise

end Str

end SimpleProcessMonitor
