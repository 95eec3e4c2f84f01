import SimpleProcessMonitor.StringBufferCore

/-!
What a string buffer holds: each operation is the one on byte strings, whatever the
allocator left in the memory and however often the buffer grew.
-/

namespace SimpleProcessMonitor

open CString

namespace StringBuffer

/-- The first bytes are the text, with room for a NUL behind them. -/
structure Holds (S : StringBuffer) (text : Bytes) : Prop where
  used : S.used = text.length
  size : S.buffer.length = S.length
  room : S.used < S.length
  front : ∃ rest, S.buffer = text ++ rest

/-- A C string of the right length. -/
structure Represents (S : StringBuffer) (text : Bytes) : Prop where
  used : S.used = text.length
  size : S.buffer.length = S.length
  stored : ∃ rest, S.buffer = text ++ 0 :: rest
  visible : 0 ∉ text

variable {S : StringBuffer} {text : Bytes}

theorem Represents.holds (represents : S.Represents text) : S.Holds text := by
  obtain ⟨rest, stored⟩ := represents.stored
  refine ⟨represents.used, represents.size, ?_, 0 :: rest, stored⟩
  have size := represents.size
  simp only [stored, List.length_append, List.length_cons] at size
  have used := represents.used
  omega

theorem Holds.resize (memory : RawMemory) (holds : S.Holds text) {length : Nat}
    (larger : S.length ≤ length) : (S.resize memory length).Holds text := by
  obtain ⟨rest, front⟩ := holds.front
  have size := holds.size
  have room := holds.room
  refine ⟨holds.used, ?_, by simp only [StringBuffer.resize]; omega, ?_⟩
  · simp [StringBuffer.resize]
    omega
  · exact ⟨rest ++ ((List.range length).drop S.length).map (memory length), by
      simp [StringBuffer.resize, front]⟩

theorem Holds.vsnprintf (holds : S.Holds text) (more : Bytes) :
    ∃ rest, S.vsnprintf more = { S with
      buffer := text ++ (more.take (S.length - S.used - 1) ++ [0]) ++ rest } ∧
      (S.vsnprintf more).buffer.length = S.length := by
  have room := holds.room
  have size := holds.size
  obtain ⟨rest, front⟩ := holds.front
  have before : S.buffer.take S.used = text := by
    rw [front, holds.used, List.take_left]
  have unfolded : S.vsnprintf more = { S with
      buffer := text ++ (more.take (S.length - S.used - 1) ++ [0]) ++
        S.buffer.drop (S.used + (more.take (S.length - S.used - 1) ++ [0]).length) } := by
    rw [StringBuffer.vsnprintf, if_neg (by omega), before]
  refine ⟨_, unfolded, ?_⟩
  have used := holds.used
  rw [unfolded]
  simp only [List.length_append, List.length_take, List.length_singleton, List.length_drop]
  omega

theorem Holds.printed (holds : S.Holds text) (more : Bytes) : (S.vsnprintf more).Holds text := by
  obtain ⟨rest, printed, size⟩ := holds.vsnprintf more
  rw [printed] at size ⊢
  exact ⟨holds.used, size, holds.room, _, List.append_assoc _ _ _⟩

theorem Holds.fits (holds : S.Holds text) {more : Bytes} (visible : 0 ∉ text ++ more)
    (fits : S.used + more.length < S.length) :
    { S.vsnprintf more with used := S.used + more.length }.Represents (text ++ more) := by
  obtain ⟨rest, printed, size⟩ := holds.vsnprintf more
  have whole : more.take (S.length - S.used - 1) = more := List.take_of_length_le (by omega)
  rw [printed, whole] at size ⊢
  exact ⟨by simp [holds.used], size, ⟨rest, by simp⟩, visible⟩

theorem vsnprintf_length (S : StringBuffer) (more : Bytes) :
    (S.vsnprintf more).length = S.length := by
  unfold StringBuffer.vsnprintf
  split <;> rfl

theorem vsnprintf_used (S : StringBuffer) (more : Bytes) : (S.vsnprintf more).used = S.used := by
  unfold StringBuffer.vsnprintf
  split <;> rfl

/-- A buffer that is large enough stays as it is, and one growth is enough for any text. -/
theorem append_length_le (memory : RawMemory) (S : StringBuffer) (more : Bytes) :
    (S.append memory more).length ≤ max S.length (S.used + 2 * more.length + bufferStrlen) := by
  fun_induction StringBuffer.append memory S more with
  | case1 S printed inRoom => exact (vsnprintf_length S more).trans_le (Nat.le_max_left _ _)
  | case2 S printed full ih =>
      have used : (printed.resize memory (S.length + (bufferStrlen + more.length))).used = S.used :=
        vsnprintf_used S more
      have length : (printed.resize memory (S.length + (bufferStrlen + more.length))).length =
          S.length + (bufferStrlen + more.length) := rfl
      omega

theorem Holds.append (memory : RawMemory) (holds : S.Holds text) {more : Bytes}
    (visible : 0 ∉ text ++ more) : (S.append memory more).Represents (text ++ more) := by
  fun_induction StringBuffer.append memory S more with
  | case1 S printed inRoom => exact holds.fits visible inRoom
  | case2 S printed full ih =>
      refine ih ?_
      refine (holds.printed more).resize memory ?_
      have sameLength := vsnprintf_length S more
      omega

theorem Represents.append (memory : RawMemory) (represents : S.Represents text) {more : Bytes}
    (visible : 0 ∉ more) : (S.append memory more).Represents (text ++ more) :=
  represents.holds.append memory (by
    rw [List.mem_append]
    exact fun member => member.elim represents.visible visible)

theorem ctor_represents (memory : RawMemory) {hint : Nat} (positive : 0 < hint) :
    (ctor memory hint).Represents [] := by
  refine ⟨rfl, by simp [ctor], ?_, by simp⟩
  obtain ⟨hint, rfl⟩ := Nat.exists_eq_succ_of_ne_zero positive.ne'
  exact ⟨_, by simp only [ctor, List.range_succ_eq_map, List.map_cons, List.set_cons_zero]; rfl⟩

theorem Represents.clear (represents : S.Represents text) : S.clear.Represents [] := by
  obtain ⟨rest, stored⟩ := represents.stored
  refine ⟨rfl, by simpa [StringBuffer.clear] using represents.size, ?_, by simp⟩
  cases text with
  | nil => exact ⟨rest, by simp [StringBuffer.clear, stored]⟩
  | cons first text => exact ⟨text ++ 0 :: rest, by simp [StringBuffer.clear, stored]⟩

theorem Represents.toString (represents : S.Represents text) : S.toString = text := by
  obtain ⟨rest, stored⟩ := represents.stored
  rw [StringBuffer.toString, stored, cString_ended represents.visible]

theorem rightTrim_length (used : Nat) (S : StringBuffer) : (S.rightTrim used).length = S.length := by
  induction used generalizing S with
  | zero => rfl
  | succ used ih =>
      rw [StringBuffer.rightTrim]
      split
      · exact ih _
      · rfl

theorem trim_length (S : StringBuffer) : S.trim.length = S.length := by
  rw [StringBuffer.trim, StringBuffer.leftTrim]
  split <;> exact rightTrim_length S.used S

end StringBuffer

end SimpleProcessMonitor
