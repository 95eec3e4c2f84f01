import SimpleProcessMonitor.StrCore

/-! What `Str_escapeZero` leaves in the buffer. -/

namespace SimpleProcessMonitor

open CString

namespace Str

def renderByte (byte : UInt8) : Bytes := if byte = 0 then [92, 48] else [byte]

def render (content : Bytes) : Bytes := content.flatMap renderByte

/-- The longest prefix of the content whose rendering has room. -/
def fitting : Nat → Bytes → Bytes
  | _, [] => []
  | room, byte :: rest =>
      if (renderByte byte).length ≤ room then
        byte :: fitting (room - (renderByte byte).length) rest
      else []

theorem fitting_prefix (room : Nat) (content : Bytes) : fitting room content <+: content := by
  induction content generalizing room with
  | nil => exact List.prefix_refl []
  | cons byte rest ih =>
      rw [fitting]
      split
      · exact (List.prefix_cons_inj byte).mpr (ih _)
      · exact List.nil_prefix

theorem render_cons (byte : UInt8) (rest : Bytes) :
    render (byte :: rest) = renderByte byte ++ render rest := List.flatMap_cons

theorem fitting_room (room : Nat) (content : Bytes) :
    (render (fitting room content)).length ≤ room := by
  induction content generalizing room with
  | nil => exact Nat.zero_le room
  | cons byte rest ih =>
      rw [fitting]
      split
      · have later := ih (room - (renderByte byte).length)
        rw [render_cons, List.length_append]
        omega
      · exact Nat.zero_le room

theorem fitting_longest {room : Nat} {content other : Bytes} (front : other <+: content)
    (fits : (render other).length ≤ room) : other.length ≤ (fitting room content).length := by
  induction content generalizing room other with
  | nil => simp [List.prefix_nil.mp front]
  | cons byte rest ih =>
      cases other with
      | nil => exact Nat.zero_le _
      | cons first other =>
          obtain ⟨rfl, behind⟩ := List.cons_prefix_cons.mp front
          rw [render_cons, List.length_append] at fits
          rw [fitting, if_pos (by omega), List.length_cons, List.length_cons]
          exact Nat.succ_le_succ (ih behind (by omega))

/-! One round, with the rendering of what is processed in front. -/

theorem escapeAt_front (done behind : Bytes) {count : Nat} (inside : count < behind.length) :
    ∃ shifted, escapeAt (done ++ 0 :: behind) done.length (count + 1) =
      some (done ++ [92, 48] ++ shifted) ∧ shifted.length + 1 = behind.length ∧
        behind.take count <+: shifted := by
  have moved : Block.move (done ++ 0 :: behind) (done.length + 1) done.length (count + 1) =
      some (done ++ 0 :: 0 :: (behind.take count ++ behind.drop (count + 1))) := by
    have source : ((done ++ 0 :: behind).drop done.length).take (count + 1) =
        0 :: behind.take count := by
      rw [List.drop_left, List.take_succ_cons]
    have same : (behind.take (count + 1)).length = (0 :: behind.take count).length := by
      simp only [List.length_take, List.length_cons]
      omega
    have stored := Block.store_middle (done ++ [0]) (behind.drop (count + 1)) same
    rw [List.take_append_drop, List.length_append, List.length_singleton] at stored
    rw [Block.move, if_pos (by simp only [List.length_append, List.length_cons]; omega), source]
    simpa using stored
  have slash := Block.write_middle done (0 :: (behind.take count ++ behind.drop (count + 1))) 0 92
  have digit := Block.write_middle (done ++ [92]) (behind.take count ++ behind.drop (count + 1)) 0 48
  rw [List.length_append, List.length_singleton, List.append_assoc, List.append_assoc] at digit
  refine ⟨behind.take count ++ behind.drop (count + 1), ?_, ?_, List.prefix_append _ _⟩
  · rw [escapeAt, moved, Option.bind_eq_bind, Option.bind_some, slash,
      Option.bind_some]
    simpa using digit
  · simp only [List.length_append, List.length_take, List.length_drop]
    omega

section Rounds

variable {bufferLength contentLength p c : Nat} {buf : Bytes} {byte : UInt8}

theorem escapeLoop_escape (entered : p < contentLength ∧ c < bufferLength)
    (read : buf[c]? = some 0) (room : c + 1 < bufferLength - 1) {escaped : Bytes}
    (written : escapeAt buf c (min (contentLength - p) (bufferLength - c - 1)) = some escaped) :
    escapeLoop bufferLength contentLength p c buf =
      escapeLoop bufferLength contentLength (p + 1) (c + 2) escaped := by
  rw [escapeLoop, if_pos entered, read]
  simp only [true_and, room, if_true, written]

theorem escapeLoop_keep (entered : p < contentLength ∧ c < bufferLength)
    (read : buf[c]? = some byte) (kept : ¬(byte = 0 ∧ c + 1 < bufferLength - 1)) :
    escapeLoop bufferLength contentLength p c buf =
      escapeLoop bufferLength contentLength (p + 1) (c + 1) buf := by
  rw [escapeLoop, if_pos entered, read]
  simp only [kept, if_false]

/-- On the last two bytes nothing is escaped any more. -/
theorem escapeLoop_end (sized : buf.length = bufferLength) (near : bufferLength ≤ c + 2)
    (inside : c ≤ bufferLength) :
    ∃ index, escapeLoop bufferLength contentLength p c buf = some (index, buf) ∧ c ≤ index ∧
      index ≤ bufferLength := by
  fun_induction escapeLoop bufferLength contentLength p c buf with
  | case1 p c buf entered outside =>
      rw [List.getElem?_eq_none_iff] at outside
      omega
  | case2 => omega
  | case3 => omega
  | case4 p c buf entered byte read kept ih =>
      obtain ⟨index, looped, above, below⟩ := ih sized (by omega) (by omega)
      exact ⟨index, looped, by omega, below⟩
  | case5 p c buf left => exact ⟨c, rfl, Nat.le_refl c, inside⟩

end Rounds

theorem escapeLoop_stops {bufferLength contentLength p : Nat} {done behind : Bytes} {byte : UInt8}
    (visible : 0 ∉ done) (sized : bufferLength = done.length + (behind.length + 1))
    (entered : p < contentLength ∧ done.length < bufferLength)
    (read : (done ++ byte :: behind)[done.length]? = some byte)
    (full : behind.length < (renderByte byte).length) :
    ∃ index buf, escapeLoop bufferLength contentLength p done.length (done ++ byte :: behind) =
        some (index, buf) ∧ buf.length = bufferLength ∧
      cString (buf.take (min index (bufferLength - 1))) = done := by
  have whole : (done ++ byte :: behind).length = bufferLength := by
    rw [List.length_append, List.length_cons, sized]
  have two : (renderByte byte).length = if byte = 0 then 2 else 1 := by
    unfold renderByte
    split <;> rfl
  rw [two] at full
  have kept : ¬(byte = 0 ∧ done.length + 1 < bufferLength - 1) := by
    rintro ⟨zero, free⟩
    rw [if_pos zero] at full
    omega
  have last : behind.length ≤ 1 := by
    split at full <;> omega
  rw [escapeLoop_keep entered read kept]
  obtain ⟨index, looped, above, below⟩ :=
    @escapeLoop_end bufferLength contentLength (p + 1) (done.length + 1) _ whole (by omega) (by omega)
  refine ⟨index, done ++ byte :: behind, looped, whole, ?_⟩
  rw [Nat.min_eq_right (by omega), sized]
  rcases Nat.le_one_iff_eq_zero_or_eq_one.mp last with empty | single
  · rw [empty, List.take_left' (by omega), cString_of_visible visible]
  · have zero : byte = 0 := by
      by_contra nonzero
      rw [if_neg nonzero, single] at full
      omega
    have front : done.length + (behind.length + 1) - 1 = (done ++ [byte]).length := by
      rw [List.length_append, List.length_singleton, single]
      omega
    rw [front, List.append_cons done byte behind, List.take_left, cString_append visible, zero]
    exact List.append_nil done

/-- The rest of the content moves on by one byte, and its end may get lost. -/
theorem escapeLoop_escaped {bufferLength contentLength p : Nat} {done behind rest : Bytes}
    (sized : bufferLength = done.length + (behind.length + 1))
    (entered : p < contentLength ∧ done.length < bufferLength)
    (remaining : contentLength = p + (rest.length + 1)) (fits : 2 ≤ behind.length)
    (follows : rest.take behind.length <+: behind) :
    ∃ shifted, escapeLoop bufferLength contentLength p done.length (done ++ 0 :: behind) =
        escapeLoop bufferLength contentLength (p + 1) (done ++ [92, 48]).length
          (done ++ [92, 48] ++ shifted) ∧
      shifted.length + 1 = behind.length ∧ rest.take shifted.length <+: shifted := by
  have inside : min rest.length (behind.length - 1) < behind.length := by omega
  obtain ⟨shifted, escaped, size, kept⟩ := escapeAt_front done behind inside
  have count : min (contentLength - p) (bufferLength - done.length - 1) =
      min rest.length (behind.length - 1) + 1 := by omega
  have read : (done ++ 0 :: behind)[done.length]? = some 0 := by simp
  refine ⟨shifted, ?_, size, List.IsPrefix.trans ?_ kept⟩
  · rw [escapeLoop_escape entered read (by omega) (count ▸ escaped)]
    simp
  · refine List.prefix_take_iff.mpr ⟨?_, by rw [List.length_take]; omega⟩
    exact (List.take_prefix_take_left (by omega)).trans follows

/-- The processed content is rendered in front of `currentByteIndex`, and from there on the
rest of the content follows, as far as the buffer reaches. -/
theorem escapeLoop_renders {bufferLength contentLength p : Nat} {done behind rest : Bytes}
    (visible : 0 ∉ done) (sized : bufferLength = done.length + behind.length)
    (room : behind ≠ []) (remaining : contentLength = p + rest.length)
    (follows : rest.take behind.length <+: behind) :
    ∃ index buf, escapeLoop bufferLength contentLength p done.length (done ++ behind) =
        some (index, buf) ∧ buf.length = bufferLength ∧
      cString (buf.take (min index (bufferLength - 1))) =
        done ++ render (fitting (behind.length - 1) rest) := by
  induction rest generalizing p done behind with
  | nil =>
      have positive := List.length_pos_iff.mpr room
      rw [List.length_nil] at remaining
      rw [escapeLoop, if_neg (by omega)]
      refine ⟨done.length, done ++ behind, rfl, by rw [List.length_append, sized], ?_⟩
      rw [Nat.min_eq_left (by omega), List.take_left, cString_of_visible visible, fitting, render]
      simp
  | cons byte rest ih =>
      obtain ⟨first, behind, rfl⟩ := List.exists_cons_of_ne_nil room
      rw [List.length_cons, List.take_succ_cons] at follows
      obtain ⟨rfl, later⟩ := List.cons_prefix_cons.mp follows
      rw [List.length_cons] at sized remaining
      have entered : p < contentLength ∧ done.length < bufferLength := by omega
      have read : (done ++ byte :: behind)[done.length]? = some byte := by simp
      have rendered : fitting ((byte :: behind).length - 1) (byte :: rest) =
          if (renderByte byte).length ≤ behind.length then
            byte :: fitting (behind.length - (renderByte byte).length) rest
          else [] := rfl
      rw [rendered]
      by_cases fits : (renderByte byte).length ≤ behind.length
      · rw [if_pos fits, render_cons, ← List.append_assoc]
        by_cases zero : byte = 0
        · subst byte
          have two : renderByte 0 = [92, 48] := rfl
          have width : ([92, 48] : Bytes).length = 2 := rfl
          rw [two, width] at fits
          obtain ⟨shifted, step, size, moved⟩ :=
            escapeLoop_escaped sized entered (by omega) (by omega) later
          have room : shifted ≠ [] := List.ne_nil_of_length_pos (by omega)
          rw [step, two, width, show behind.length - 2 = shifted.length - 1 by omega]
          refine ih (by simp [visible]) ?_ room (by omega) moved
          simp only [List.length_append, List.length_cons, List.length_nil]
          omega
        · have one : renderByte byte = [byte] := if_neg zero
          have room : behind ≠ [] := List.ne_nil_of_length_pos (by rw [one] at fits; exact fits)
          rw [escapeLoop_keep entered read (fun both => zero both.1)]
          have front : (done ++ [byte]).length = done.length + 1 := by simp
          have next := @ih (p + 1) (done ++ [byte]) behind
            (by simp [visible, Ne.symm zero]) (by omega) room (by omega) later
          rw [front, List.append_assoc, List.singleton_append] at next
          rw [one]
          exact next
      -- There is no room for the rendering of the byte: the string ends in front of it.
      · rw [if_neg fits, render, List.flatMap_nil, List.append_nil]
        exact escapeLoop_stops visible sized entered read (by omega)

theorem write_cString {buf : Bytes} {index : Nat} (inside : index < buf.length) :
    ∃ result, Block.write buf index 0 = some result ∧ result.length = buf.length ∧
      0 ∈ result ∧ cString result = cString (buf.take index) := by
  have split : buf.take index ++ buf[index] :: buf.drop (index + 1) = buf := by
    rw [← List.drop_eq_getElem_cons inside, List.take_append_drop]
  have front : (buf.take index).length = index := by
    rw [List.length_take]
    omega
  have written := Block.write_middle (buf.take index) (buf.drop (index + 1)) buf[index] 0
  rw [split, front] at written
  refine ⟨_, written, Block.store_length written, by simp, ?_⟩
  exact cString_terminated _ _

theorem escapeZero_renders {buf : Bytes} {bufferLength contentLength : Nat}
    (sized : buf.length = bufferLength) (positive : 1 ≤ bufferLength)
    (inside : contentLength ≤ bufferLength) :
    ∃ result front, escapeZero buf bufferLength contentLength = some result ∧
      result.length = bufferLength ∧ 0 ∈ result ∧ cString result = render front ∧
        front <+: buf.take contentLength ∧ (render front).length ≤ bufferLength - 1 ∧
          ∀ other, other <+: buf.take contentLength →
            (render other).length ≤ bufferLength - 1 → other.length ≤ front.length := by
  have room : buf ≠ [] := List.ne_nil_of_length_pos (by omega)
  have follows : (buf.take contentLength).take buf.length <+: buf :=
    (List.take_prefix _ _).trans (List.take_prefix _ _)
  have remaining : contentLength = 0 + (buf.take contentLength).length := by
    rw [List.length_take]
    omega
  obtain ⟨index, looped, escaped, size, rendered⟩ :=
    @escapeLoop_renders bufferLength contentLength 0 [] buf _ (by simp) (by simp [sized])
      room remaining follows
  rw [List.nil_append, List.length_nil] at escaped
  obtain ⟨result, written, kept, terminated, same⟩ :=
    write_cString (by omega : min index (bufferLength - 1) < looped.length)
  refine ⟨result, fitting (bufferLength - 1) (buf.take contentLength), ?_, kept.trans size,
    terminated, ?_, fitting_prefix _ _, fitting_room _ _, fun other => fitting_longest⟩
  · rw [escapeZero, escaped]
    dsimp only
    split
    · rwa [Nat.min_eq_left (by omega)] at written
    · rwa [Nat.min_eq_right (by omega)] at written
  · rw [same, rendered, sized, List.nil_append]

theorem escapeZero_renders_sample :
    ∃ result front, escapeZero [97, 0, 98, 0, 99, 7] 6 5 = some result ∧
      result.length = 6 ∧ 0 ∈ result ∧ cString result = render front ∧
        front <+: [97, 0, 98, 0, 99] ∧ (render front).length ≤ 5 ∧
          ∀ other, other <+: [97, 0, 98, 0, 99] →
            (render other).length ≤ 5 → other.length ≤ front.length :=
  escapeZero_renders rfl (by decide) (by decide)

end Str

end SimpleProcessMonitor
