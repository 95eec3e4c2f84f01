import Mathlib.Data.List.GetD
import SimpleProcessMonitor.TrimChecks

/-!
Runs of operations on one string buffer, beside the same operations on byte strings.
-/

namespace SimpleProcessMonitor

open CString

inductive Start
  | new (s : CText)
  | create (hint : Int)

inductive Operation
  | append (format : Format)
  | trim
  | delete (index : Int)
  | clear

section Buffers

variable (memory : RawMemory)

def Start.make : Start → Option StringBuffer
  | new s => some (StringBuffer.new memory s)
  | create hint => StringBuffer.create memory hint

def Operation.perform (S : StringBuffer) : Operation → Option StringBuffer
  | append format => some (S.appendFormat memory format)
  | trim => some S.trim
  | delete index => S.delete index
  | clear => some S.clear

def bufferAfter (start : Start) (operations : List Operation) : Option StringBuffer :=
  (start.make memory).bind (operations.foldlM (Operation.perform memory))

end Buffers

section Texts

def Start.text : Start → Option Bytes
  | new s => some s.bytes
  | create hint => if 0 < hint then some [] else none

def Operation.edit (text : Bytes) : Operation → Option Bytes
  | append format => some (text ++ format.text)
  | trim => some (CString.trim text)
  | delete index => if 0 ≤ index ∧ index ≤ text.length then some (text.take index.toNat) else none
  | clear => some []

def textAfter (start : Start) (operations : List Operation) : Option Bytes :=
  start.text.bind (operations.foldlM Operation.edit)

end Texts

/-! The bytes a run asks for at most: no `int` of the buffer exceeds them. -/

def Start.size : Start → Nat
  | new s => bufferStrlen + (bufferStrlen + s.bytes.length)
  | create hint => hint.toNat

def Operation.size : Operation → Nat
  | append format => bufferStrlen + format.text.length
  | _ => 0

def totalSize (start : Start) (operations : List Operation) : Nat :=
  start.size + (operations.map Operation.size).sum

theorem rel_bind {α β γ δ : Type} {first : α → β → Prop} {second : γ → δ → Prop}
    {a : Option α} {b : Option β} {f : α → Option γ} {g : β → Option δ}
    (related : Option.Rel first a b)
    (next : ∀ x y, first x y → Option.Rel second (f x) (g y)) :
    Option.Rel second (a.bind f) (b.bind g) := by
  cases related with
  | none => exact .none
  | some holds => exact next _ _ holds

namespace StringBuffer

variable (memory : RawMemory)

/-- A pass of the loop that has no room, and grows the block for the next one. -/
def retry (text : Bytes) (S : StringBuffer) : StringBuffer :=
  (S.vsnprintf text).resize memory (S.length + (bufferStrlen + text.length))

/-- `appendPasses` counts the passes of `append`: all but the last have no room. -/
theorem append_passes (S : StringBuffer) (text : Bytes) :
    let last := (retry memory text)^[appendPasses memory S text - 1] S
    S.append memory text = { last.vsnprintf text with used := last.used + text.length } ∧
      last.used + text.length < last.length ∧
      ∀ pass < appendPasses memory S text - 1,
        ((retry memory text)^[pass] S).length ≤ ((retry memory text)^[pass] S).used + text.length := by
  fun_induction appendPasses memory S text with
  | case1 S fits =>
      rw [StringBuffer.append, if_pos fits]
      exact ⟨rfl, fits, fun pass inside => absurd inside (Nat.not_lt_zero pass)⟩
  | case2 S printed full ih =>
      obtain ⟨passes, same⟩ : ∃ passes,
          appendPasses memory (retry memory text S) text = passes + 1 := by
        rw [appendPasses]
        split
        · exact ⟨0, rfl⟩
        · exact ⟨_, Nat.add_comm 1 _⟩
      change appendPasses memory (printed.resize memory _) text = _ at same
      rw [same, Nat.add_sub_cancel] at ih
      rw [StringBuffer.append, if_neg full, same, Nat.add_sub_cancel_left]
      obtain ⟨appended, room, before⟩ := ih
      refine ⟨appended, room, fun pass inside => ?_⟩
      cases pass with
      | zero => exact Nat.not_lt.mp full
      | succ pass => exact before pass (Nat.lt_of_succ_lt_succ inside)

section Append

variable {S : StringBuffer} (room : S.used < S.length) (text : Bytes)

include room

theorem resize_fits :
    let grown := (S.vsnprintf text).resize memory (S.length + (bufferStrlen + text.length))
    grown.used + text.length < grown.length := by
  have used := vsnprintf_used S text
  simp only [resize, used]
  omega

theorem append_size : (S.append memory text).length =
    if S.used + text.length < S.length then S.length else S.length + (bufferStrlen + text.length) := by
  rw [StringBuffer.append]
  split
  · exact vsnprintf_length S text
  · rw [StringBuffer.append, if_pos (resize_fits memory room text)]
    exact vsnprintf_length _ text

theorem append_length : (S.append memory text).length ≤ S.length + (bufferStrlen + text.length) := by
  rw [append_size memory room text]
  split
  · exact Nat.le_add_right _ _
  · exact Nat.le_refl _

theorem appendPasses_le : appendPasses memory S text ≤ 2 := by
  rw [appendPasses]
  split
  · decide
  · rw [appendPasses, if_pos (resize_fits memory room text)]

end Append

variable {S : StringBuffer} {text : Bytes}

theorem Represents.appendFormat (represents : S.Represents text) (format : Format) :
    (S.appendFormat memory format).Represents (text ++ format.text) := by
  cases format with
  | string argument => exact represents.append memory argument.visible
  | char argument visible =>
      refine represents.append memory ?_
      rw [Format.text, List.mem_singleton]
      exact visible.symm
  | literal literal plain =>
      by_cases empty : literal.bytes = []
      · simpa [StringBuffer.appendFormat, Format.defined, Format.text, empty] using represents
      · simpa [StringBuffer.appendFormat, Format.defined, Format.text, empty] using
          represents.append memory literal.visible

theorem Represents.appendFormat_length (represents : S.Represents text) (format : Format) :
    (S.appendFormat memory format).length ≤ S.length + (bufferStrlen + format.text.length) := by
  rw [StringBuffer.appendFormat]
  split
  · exact append_length memory represents.holds.room format.text
  · exact Nat.le_add_right _ _

theorem new_represents (s : CText) : (new memory s).Represents s.bytes :=
  (ctor_represents memory (by decide : 0 < bufferStrlen)).appendFormat memory (.string s)

theorem Represents.delete (represents : S.Represents text) {index : Nat}
    (inside : index ≤ text.length) :
    { S with used := index, buffer := S.buffer.set index 0 }.Represents (text.take index) := by
  obtain ⟨rest, stored⟩ := represents.stored
  have front : (text.take index).length = index := by
    rw [List.length_take]
    omega
  have size := represents.size
  refine ⟨front.symm, by simpa using size, ?_, fun member => represents.visible (List.mem_of_mem_take member)⟩
  obtain ⟨byte, behind, split⟩ : ∃ byte behind, S.buffer = text.take index ++ byte :: behind := by
    rw [stored]
    rcases Nat.lt_or_eq_of_le inside with below | rfl
    · refine ⟨text[index], text.drop (index + 1) ++ 0 :: rest, ?_⟩
      rw [← List.cons_append, ← List.drop_eq_getElem_cons below, ← List.append_assoc,
        List.take_append_drop]
    · exact ⟨0, rest, by rw [List.take_length]⟩
  refine ⟨behind, ?_⟩
  rw [split, List.set_append_right _ _ (by omega), front, Nat.sub_self, List.set_cons_zero]

theorem Represents.perform (represents : S.Represents text) (operation : Operation) :
    Option.Rel (fun (result : StringBuffer) edited =>
        result.Represents edited ∧ result.length ≤ S.length + operation.size)
      (operation.perform memory S) (operation.edit text) := by
  cases operation with
  | append format =>
      exact .some ⟨represents.appendFormat memory format,
        represents.appendFormat_length memory format⟩
  | trim => exact .some ⟨represents.trim, (trim_length S).le⟩
  | clear => exact .some ⟨represents.clear, Nat.le_refl _⟩
  | delete index =>
      rw [Operation.perform, StringBuffer.delete, Operation.edit, represents.used]
      split
      · rename_i inside
        exact .some ⟨represents.delete (by omega), Nat.le_refl _⟩
      · exact .none

theorem Represents.foldlM (represents : S.Represents text) {bound : Nat}
    (bounded : S.length ≤ bound) (operations : List Operation) :
    Option.Rel (fun (result : StringBuffer) edited =>
        result.Represents edited ∧ result.length ≤ bound + (operations.map Operation.size).sum)
      (operations.foldlM (Operation.perform memory) S) (operations.foldlM Operation.edit text) := by
  induction operations generalizing S text bound with
  | nil => exact .some ⟨represents, bounded⟩
  | cons operation operations ih =>
      rw [List.foldlM_cons, List.foldlM_cons, List.map_cons, List.sum_cons, ← Nat.add_assoc]
      refine rel_bind (represents.perform memory operation) ?_
      rintro result edited ⟨holds, grown⟩
      exact ih holds (grown.trans (Nat.add_le_add_right bounded _))

theorem start_represents (start : Start) :
    Option.Rel (fun (S : StringBuffer) text => S.Represents text ∧ S.length ≤ start.size)
      (start.make memory) start.text := by
  cases start with
  | new s =>
      have empty := ctor_represents memory (by decide : 0 < bufferStrlen)
      exact .some ⟨new_represents memory s, empty.appendFormat_length memory (.string s)⟩
  | create hint =>
      rw [Start.make, create, Start.text]
      split
      · exact .some ⟨ctor_represents memory (by omega), Nat.le_refl _⟩
      · exact .none

theorem Represents.bytes (represents : S.Represents text) :
    S.byteAt S.used = 0 ∧ (∀ index < S.used, S.byteAt index ≠ 0) ∧ S.buffer.take S.used = text := by
  obtain ⟨rest, stored⟩ := represents.stored
  have used := represents.used
  refine ⟨?_, ?_, ?_⟩
  · rw [byteAt, stored, used, List.getD_append_right _ _ _ _ (Nat.le_refl _), Nat.sub_self]
    rfl
  · intro index inside zero
    rw [used] at inside
    rw [byteAt, stored, List.getD_append _ _ _ _ inside, List.getD_eq_getElem _ _ inside] at zero
    exact represents.visible (zero ▸ List.getElem_mem inside)
  · rw [stored, used, List.take_left]

theorem bufferAfter_correct (start : Start) (operations : List Operation) :
    Option.Rel (fun (S : StringBuffer) text =>
        S.used < S.length ∧ S.buffer.length = S.length ∧ S.byteAt S.used = 0 ∧
          (∀ index < S.used, S.byteAt index ≠ 0) ∧ S.buffer.take S.used = text ∧
            S.length ≤ totalSize start operations ∧ ∀ more, appendPasses memory S more ≤ 2)
      (bufferAfter memory start operations) (textAfter start operations) := by
  have run : Option.Rel (fun (S : StringBuffer) text =>
        S.Represents text ∧ S.length ≤ totalSize start operations)
      (bufferAfter memory start operations) (textAfter start operations) := by
    refine rel_bind (start_represents memory start) ?_
    rintro S text ⟨represents, bounded⟩
    exact represents.foldlM memory bounded operations
  generalize bufferAfter memory start operations = buffer at run ⊢
  generalize textAfter start operations = text at run ⊢
  cases run with
  | none => exact .none
  | some holds =>
      obtain ⟨represents, bounded⟩ := holds
      obtain ⟨terminated, visible, front⟩ := represents.bytes
      have room := represents.holds.room
      exact .some ⟨room, represents.size, terminated, visible, front, bounded,
        appendPasses_le memory room⟩

end StringBuffer

end SimpleProcessMonitor
