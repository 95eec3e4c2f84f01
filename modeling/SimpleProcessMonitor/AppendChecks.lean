import SimpleProcessMonitor.StringBufferRunChecks

/-! Runs of appends in which `vsnprintf` may fail or the sizes may leave the range of `int`. -/

namespace SimpleProcessMonitor

open CString

def PrintBuffer.ofBuffer (S : StringBuffer) (room : S.used < S.length) (int : S.length < 2 ^ 31) :
    PrintBuffer where
  used := S.used
  length := S.length
  buffer := S.buffer
  below := by omega
  usedInt := ⟨by omega, by omega⟩
  lengthInt := ⟨by omega, by omega⟩

/-- No call of `vsnprintf` fails, of which there is a second one where the buffer has to grow. -/
def AppendCall.Prints (call : AppendCall) (S : StringBuffer) : Prop :=
  call.failure 0 = none ∧ (S.length ≤ S.used + call.text.bytes.length → call.failure 1 = none)

/-- The sums that the append forms are numbers of type `int`. -/
def AppendCall.InInt (call : AppendCall) (S : StringBuffer) : Prop :=
  S.used + call.text.bytes.length < 2 ^ 31 ∧ (S.length ≤ S.used + call.text.bytes.length →
    S.length + (bufferStrlen + call.text.bytes.length) < 2 ^ 31)

def AppendCall.Succeeds (call : AppendCall) (S : StringBuffer) : Prop :=
  call.defined = true → call.Prints S ∧ call.InInt S

def AppendCall.apply (memory : RawMemory) (S : StringBuffer) (call : AppendCall) : StringBuffer :=
  if call.defined then S.append memory call.text.bytes else S

def Undisturbed (memory : RawMemory) : List AppendCall → StringBuffer → Prop
  | [], _ => True
  | call :: calls, S => call.Succeeds S ∧ Undisturbed memory calls (call.apply memory S)

/-- Every append of the run stays within the block and leaves a used part within the buffer,
and one that fails leaves the used part and the content as they were. -/
def SafeRun (memory : RawMemory) : List AppendCall → PrintBuffer → Prop
  | [], _ => True
  | call :: calls, S =>
      ∃ n result, S.append memory call = some (n, result) ∧
        0 ≤ result.used ∧ result.used < result.length ∧
          (n < 0 → result.used = S.used ∧ cString result.buffer = cString S.buffer) ∧
            SafeRun memory calls result

namespace PrintBuffer

variable (memory : RawMemory)

section Rounds

variable {memory} {text buffer : Bytes} {failure : Nat → Option PrintFailure} {pass : Nat}
  {S : PrintBuffer} {n : Int}

theorem appendLoop_outside (outside : S.vsnprintf text (failure pass) = none) :
    appendLoop memory text failure pass S = none := by
  rw [appendLoop]
  split
  · rfl
  · rename_i reached
    rw [outside] at reached
    cases reached

theorem appendLoop_done (printed : S.vsnprintf text (failure pass) = some (n, buffer))
    (inInt : FitsInt (S.used + n)) (fits : S.used + n < S.length) :
    appendLoop memory text failure pass S =
      some (n, ⟨S.used + n, S.length, buffer, fits, inInt, S.lengthInt⟩) := by
  rw [appendLoop]
  split
  · rename_i failed
    rw [printed] at failed
    cases failed
  · rename_i reached
    rw [printed] at reached
    cases reached
    rw [dif_pos inInt, dif_pos fits]

theorem appendLoop_overflows (printed : S.vsnprintf text (failure pass) = some (n, buffer))
    (overflow : ¬FitsInt (S.used + n)) : appendLoop memory text failure pass S = none := by
  rw [appendLoop]
  split
  · rfl
  · rename_i reached
    rw [printed] at reached
    cases reached
    exact dif_neg overflow

/-- The sums behind the growth of a buffer. -/
def Grows (S : PrintBuffer) (n : Int) : Prop :=
  FitsInt (bufferStrlen + n) ∧ FitsInt (S.length + (bufferStrlen + n))

theorem appendLoop_grows (printed : S.vsnprintf text (failure pass) = some (n, buffer))
    (inInt : FitsInt (S.used + n)) (full : ¬S.used + n < S.length) (grows : Grows S n)
    (below : S.used < S.length + (bufferStrlen + n)) :
    appendLoop memory text failure pass S =
      appendLoop memory text failure (pass + 1) ⟨S.used, S.length + (bufferStrlen + n),
        resize memory S.length (S.length + (bufferStrlen + n)) buffer, below, S.usedInt, grows.2⟩ := by
  rw [appendLoop]
  split
  · rename_i failed
    rw [printed] at failed
    cases failed
  · rename_i reached
    rw [printed] at reached
    cases reached
    rw [dif_pos inInt, dif_neg full]
    exact dif_pos grows

theorem appendLoop_stops (printed : S.vsnprintf text (failure pass) = some (n, buffer))
    (full : ¬S.used + n < S.length) (large : ¬Grows S n) :
    appendLoop memory text failure pass S = none := by
  by_cases inInt : FitsInt (S.used + n)
  · rw [appendLoop]
    split
    · rfl
    · rename_i reached
      rw [printed] at reached
      cases reached
      rw [dif_pos inInt, dif_neg full]
      exact dif_neg large
  · exact appendLoop_overflows printed inInt

end Rounds

section Success

variable {S : StringBuffer} {text : Bytes} (holds : S.Holds text) (int : S.length < 2 ^ 31)
  (more : Bytes)

include holds

theorem vsnprintf_ofBuffer :
    (ofBuffer S holds.room int).vsnprintf more none =
      some ((more.length : Int), (S.vsnprintf more).buffer) := by
  have room := holds.room
  have size := holds.size
  have free : ((ofBuffer S holds.room int).length - (ofBuffer S holds.room int).used).toNat =
      S.length - S.used := by
    simp only [ofBuffer]
    omega
  have nonempty : more.take (S.length - S.used - 1) ++ [0] ≠ [] := by simp
  have inside : S.used + (more.take (S.length - S.used - 1) ++ [0]).length ≤ S.buffer.length := by
    simp only [List.length_append, List.length_take, List.length_singleton]
    omega
  have stored : (ofBuffer S holds.room int).store (more.take (S.length - S.used - 1) ++ [0]) =
      some (S.vsnprintf more).buffer := by
    have front : 0 ≤ (ofBuffer S holds.room int).used := Int.natCast_nonneg S.used
    rw [store, if_neg nonempty, if_pos front, StringBuffer.vsnprintf, if_neg (by omega)]
    exact if_pos inside
  simp only [PrintBuffer.vsnprintf, free, stored, Option.map_some]

theorem appendLoop_fits {failure : Nat → Option PrintFailure} {pass : Nat}
    (succeeds : failure pass = none) (fits : S.used + more.length < S.length) :
    ∃ room int', appendLoop memory more failure pass (ofBuffer S holds.room int) =
      some ((more.length : Int), ofBuffer (S.append memory more) room int') := by
  have printed := vsnprintf_ofBuffer holds int more
  have length := StringBuffer.vsnprintf_length S more
  have appended : S.append memory more =
      { S.vsnprintf more with used := S.used + more.length } := by
    rw [StringBuffer.append]
    exact if_pos fits
  have kept : (S.append memory more).length = S.length := by rw [appended, length]
  have room : (S.append memory more).used < (S.append memory more).length := by
    rw [kept, appended]
    exact fits
  refine ⟨room, kept ▸ int, ?_⟩
  rw [appendLoop_done (succeeds ▸ printed)
    ⟨by simp only [ofBuffer]; omega, by simp only [ofBuffer]; omega⟩ (by simp only [ofBuffer]; omega)]
  simp only [appended, ofBuffer, length]
  rfl

theorem appendLoop_succeeds {call : AppendCall} (prints : call.Prints S) (inInt : call.InInt S) :
    ∃ room int', appendLoop memory call.text.bytes call.failure 0 (ofBuffer S holds.room int) =
      some ((call.text.bytes.length : Int),
        ofBuffer (S.append memory call.text.bytes) room int') := by
  obtain ⟨first, second⟩ := prints
  obtain ⟨sum, larger⟩ := inInt
  by_cases fits : S.used + call.text.bytes.length < S.length
  · exact appendLoop_fits memory holds int call.text.bytes first fits
  · have printed := vsnprintf_ofBuffer holds int call.text.bytes
    have length := StringBuffer.vsnprintf_length S call.text.bytes
    have used := StringBuffer.vsnprintf_used S call.text.bytes
    have new := larger (by omega)
    have below := holds.room
    have grown := (holds.printed call.text.bytes).resize memory
      (show (S.vsnprintf call.text.bytes).length ≤ S.length +
        (bufferStrlen + call.text.bytes.length) by omega)
    have appended : S.append memory call.text.bytes = ((S.vsnprintf call.text.bytes).resize memory
        (S.length + (bufferStrlen + call.text.bytes.length))).append memory call.text.bytes := by
      rw [StringBuffer.append]
      exact if_neg fits
    obtain ⟨room, int', looped⟩ := appendLoop_fits memory grown new call.text.bytes
      (second (by omega)) (StringBuffer.resize_fits memory holds.room call.text.bytes)
    have sumInt : FitsInt ((ofBuffer S holds.room int).used + call.text.bytes.length) := by
      constructor <;> simp only [ofBuffer] <;> omega
    have grows : Grows (ofBuffer S holds.room int) call.text.bytes.length := by
      refine ⟨⟨by omega, by omega⟩, ?_, ?_⟩ <;> simp only [ofBuffer] <;> omega
    have embedded : ofBuffer _ grown.room new = ⟨S.used, S.length +
        (bufferStrlen + call.text.bytes.length), resize memory S.length (S.length +
          (bufferStrlen + call.text.bytes.length)) (S.vsnprintf call.text.bytes).buffer,
        by omega, (ofBuffer S holds.room int).usedInt, grows.2⟩ := by
      have lengthNat : ((S.length : Int) + (bufferStrlen + call.text.bytes.length)).toNat =
          S.length + (bufferStrlen + call.text.bytes.length) := by omega
      simp only [ofBuffer, StringBuffer.resize, resize, used, length, lengthNat, Int.toNat_natCast,
        Int.natCast_add]
    refine ⟨appended ▸ room, appended ▸ int', ?_⟩
    rw [appendLoop_grows (first ▸ printed) sumInt (by simp only [ofBuffer]; omega) grows
      (by simp only [ofBuffer]; omega)]
    simp only [appended]
    exact embedded ▸ looped

end Success

section Failure

variable {text : Bytes} {failure : Nat → Option PrintFailure} {pass : Nat} {S result : PrintBuffer}
  {n : Int}

theorem appendLoop_used (looped : appendLoop memory text failure pass S = some (n, result)) :
    result.used = S.used + n := by
  fun_induction appendLoop memory text failure pass S with
  | case1 => cases looped
  | case2 =>
      cases looped
      rfl
  | case3 pass S m buffer printed inInt full grows length ih => exact ih looped
  | case4 => cases looped
  | case5 => cases looped

theorem appendLoop_fails {failed : PrintFailure} (fails : failure pass = some failed)
    (looped : appendLoop memory text failure pass S = some (n, result)) : n < 0 := by
  cases printed : S.vsnprintf text (failure pass) with
  | none =>
      rw [appendLoop_outside printed] at looped
      cases looped
  | some answer =>
      obtain ⟨m, buffer⟩ := answer
      have code : m = failed.code := by
        rw [fails] at printed
        obtain ⟨_, _, returned⟩ := Option.map_eq_some_iff.mp printed
        cases returned
        rfl
      have negative := failed.negative
      have below := S.below
      by_cases inInt : FitsInt (S.used + m)
      · rw [appendLoop_done printed inInt (by omega)] at looped
        cases looped
        omega
      · rw [appendLoop_overflows printed inInt] at looped
        cases looped

end Failure

theorem append_defined {S : PrintBuffer} {call : AppendCall} (defined : call.defined = true) :
    append memory S call = appendLoop memory call.text.bytes call.failure 0 S :=
  if_pos defined

theorem append_succeeds {S : StringBuffer} {text : Bytes} (holds : S.Holds text)
    (int : S.length < 2 ^ 31) {call : AppendCall} (succeeds : call.Succeeds S) :
    ∃ (n : Nat) (room : (call.apply memory S).used < (call.apply memory S).length)
      (int' : (call.apply memory S).length < 2 ^ 31),
      append memory (ofBuffer S holds.room int) call =
        some ((n : Int), ofBuffer (call.apply memory S) room int') := by
  by_cases defined : call.defined = true
  · obtain ⟨prints, inInt⟩ := succeeds defined
    have applied : call.apply memory S = S.append memory call.text.bytes := if_pos defined
    rw [append_defined memory defined, applied]
    exact ⟨_, appendLoop_succeeds memory holds int prints inInt⟩
  · have applied : call.apply memory S = S := if_neg defined
    rw [append, if_neg defined, applied]
    exact ⟨0, holds.room, int, rfl⟩

/-- An append that does not succeed is undefined, or its last `vsnprintf` failed. -/
theorem append_fails {S : StringBuffer} {text : Bytes} (holds : S.Holds text)
    (int : S.length < 2 ^ 31) {call : AppendCall} (fails : ¬call.Succeeds S) {n : Int}
    {result : PrintBuffer}
    (appended : append memory (ofBuffer S holds.room int) call = some (n, result)) : n < 0 := by
  obtain ⟨defined, fails⟩ := Classical.not_imp.mp fails
  rw [append_defined memory defined] at appended
  have room := holds.room
  cases first : call.failure 0 with
  | some failed => exact appendLoop_fails memory first appended
  | none =>
      have printed := vsnprintf_ofBuffer holds int call.text.bytes
      by_cases sum : FitsInt ((ofBuffer S holds.room int).used + call.text.bytes.length)
      · have small : S.used + call.text.bytes.length < 2 ^ 31 := by
          have upper := sum.2
          simp only [ofBuffer] at upper
          omega
        by_cases fits : S.used + call.text.bytes.length < S.length
        · exact absurd ⟨⟨first, fun full => absurd full (by omega)⟩, small,
            fun full => absurd full (by omega)⟩ fails
        · have full : ¬(ofBuffer S holds.room int).used + call.text.bytes.length <
              (ofBuffer S holds.room int).length := by
            simp only [ofBuffer]
            omega
          by_cases grows : Grows (ofBuffer S holds.room int) call.text.bytes.length
          · rw [appendLoop_grows (first ▸ printed) sum full grows
              (by simp only [ofBuffer]; omega)] at appended
            cases second : call.failure 1 with
            | some failed => exact appendLoop_fails memory second appended
            | none =>
                have larger := grows.2.2
                simp only [ofBuffer] at larger
                exact absurd ⟨⟨first, fun _ => second⟩, small, fun _ => by omega⟩ fails
          · rw [appendLoop_stops (first ▸ printed) full grows] at appended
            cases appended
      · rw [appendLoop_overflows (first ▸ printed) sum] at appended
        cases appended

theorem append_used {S result : PrintBuffer} {call : AppendCall} {n : Int}
    (appended : append memory S call = some (n, result)) : result.used = S.used + n := by
  rw [append] at appended
  split at appended
  · exact appendLoop_used memory appended
  · cases appended
    exact (Int.add_zero _).symm

theorem apply_represents {S : StringBuffer} {text : Bytes} (represents : S.Represents text)
    (call : AppendCall) : ∃ longer, (call.apply memory S).Represents longer := by
  rw [AppendCall.apply]
  split
  · exact ⟨_, represents.append memory call.text.visible⟩
  · exact ⟨text, represents⟩

/-- A failure is never made up for: its negative result becomes part of `used`. -/
theorem safeRun_iff {S : StringBuffer} {text : Bytes} (represents : S.Represents text)
    (int : S.length < 2 ^ 31) (calls : List AppendCall) :
    SafeRun memory calls (ofBuffer S represents.holds.room int) ↔ Undisturbed memory calls S := by
  induction calls generalizing S text with
  | nil => exact Iff.rfl
  | cons call calls ih =>
      have holds := represents.holds
      obtain ⟨longer, represents'⟩ := apply_represents memory represents call
      constructor
      · rintro ⟨n, result, appended, positive, _, kept, later⟩
        have moved := append_used memory appended
        -- The negative result has been added to `used`, which therefore has changed.
        have succeeds : call.Succeeds S := by
          by_contra fails
          have negative := append_fails memory holds int fails appended
          have same := (kept negative).1
          omega
        obtain ⟨m, room, int', same⟩ := append_succeeds memory holds int succeeds
        rw [same] at appended
        cases appended
        exact ⟨succeeds, (ih represents' int').mp later⟩
      · rintro ⟨succeeds, later⟩
        obtain ⟨n, room, int', appended⟩ := append_succeeds memory holds int succeeds
        refine ⟨n, _, appended, Int.natCast_nonneg _, Int.ofNat_lt.mpr room, ?_,
          (ih represents' int').mpr later⟩
        intro negative
        omega

/-- Without failures a run stays in the range of `int` while the bytes it asks for do. -/
theorem undisturbed_of_small {S : StringBuffer} {text : Bytes} (represents : S.Represents text)
    {calls : List AppendCall} (prints : ∀ call ∈ calls, ∀ pass, call.failure pass = none)
    (small : S.length + (calls.map fun call => bufferStrlen + call.text.bytes.length).sum < 2 ^ 31) :
    Undisturbed memory calls S := by
  induction calls generalizing S text with
  | nil => trivial
  | cons call calls ih =>
      rw [List.map_cons, List.sum_cons] at small
      have own := prints call List.mem_cons_self
      have room := represents.holds.room
      obtain ⟨longer, represents'⟩ := apply_represents memory represents call
      have grown : (call.apply memory S).length ≤
          S.length + (bufferStrlen + call.text.bytes.length) := by
        rw [AppendCall.apply]
        split
        · exact StringBuffer.append_length memory room call.text.bytes
        · exact Nat.le_add_right _ _
      refine ⟨fun _ => ⟨⟨own 0, fun _ => own 1⟩, by omega, fun _ => by omega⟩, ?_⟩
      exact ih represents' (fun other member => prints other (List.mem_cons_of_mem call member))
        (by omega)

def emptyBuffer : StringBuffer := ⟨0, 4, [0, 0, 0, 0]⟩

theorem emptyBuffer_represents : emptyBuffer.Represents [] :=
  ⟨rfl, rfl, ⟨[0, 0, 0], rfl⟩, List.not_mem_nil⟩

theorem emptyBuffer_int : emptyBuffer.length < 2 ^ 31 := by decide

def letterAppend (failure : Option PrintFailure) : AppendCall where
  defined := true
  text := ⟨[97], by decide⟩
  failure _ := failure

/-- The second append of the run does not fit into the four bytes. -/
def growingRun : List AppendCall :=
  [letterAppend none, { letterAppend none with text := ⟨bytes "growing", by decide⟩ },
    letterAppend none]

def refused : PrintFailure := ⟨-1, by decide, []⟩

theorem safeRun_iff_sample :
    SafeRun (fun _ _ => 0) growingRun
      (ofBuffer emptyBuffer emptyBuffer_represents.holds.room emptyBuffer_int) := by
  refine (safeRun_iff _ emptyBuffer_represents emptyBuffer_int _).mpr ?_
  refine undisturbed_of_small _ emptyBuffer_represents ?_ (by decide)
  intro call member pass
  simp only [growingRun, List.mem_cons, List.not_mem_nil, or_false] at member
  rcases member with rfl | rfl | rfl <;> rfl

/-- What the failed append leaves. -/
def underflown : PrintBuffer where
  used := -1
  length := 4
  buffer := [0, 0, 0, 0]
  below := (by decide : (-1 : Int) < 4)
  usedInt := (by decide : FitsInt (-1))
  lengthInt := (by decide : FitsInt 4)

/-- The first append fails, and the second one stores in front of the block. -/
theorem failed_append_underflows :
    ¬SafeRun (fun _ _ => 0) [letterAppend (some refused)]
        (ofBuffer emptyBuffer emptyBuffer_represents.holds.room emptyBuffer_int) ∧
      append (fun _ _ => 0) (ofBuffer emptyBuffer emptyBuffer_represents.holds.room emptyBuffer_int)
          (letterAppend (some refused)) = some (-1, underflown) ∧
      append (fun _ _ => 0) underflown (letterAppend none) = none := by
  have failed : append (fun _ _ => 0)
      (ofBuffer emptyBuffer emptyBuffer_represents.holds.room emptyBuffer_int)
      (letterAppend (some refused)) = some (-1, underflown) := by
    have printed : (ofBuffer emptyBuffer emptyBuffer_represents.holds.room emptyBuffer_int).vsnprintf
        [97] (some refused) = some (-1, [0, 0, 0, 0]) := rfl
    exact (append_defined _ rfl).trans (appendLoop_done printed (by decide) (by decide))
  refine ⟨?_, failed, ?_⟩
  · rintro ⟨n, result, appended, positive, _⟩
    rw [failed] at appended
    cases appended
    exact absurd positive (by decide)
  · exact (append_defined _ rfl).trans (appendLoop_outside rfl)

end PrintBuffer

end SimpleProcessMonitor
