import SimpleProcessMonitor.ReplaceChecks
import SimpleProcessMonitor.SearchChecks

/-!
Runs of all the calls on one string buffer, with their results, beside the same calls on byte
strings.
-/

namespace SimpleProcessMonitor

open CString Occurrence

inductive Call
  | edit (operation : Operation)
  | vappend (format : Format)
  | replace (a b : CText)
  | indexOf (s : CText)
  | lastIndexOf (s : CText)
  | substring (index : Int)
  | length
  | toString

inductive Answer
  | done
  | number (value : Int)
  | text (bytes : Bytes)

/-! The buffer. -/

def Call.perform (memory : RawMemory) (S : StringBuffer) : Call → Option (Answer × StringBuffer)
  | edit operation => (operation.perform memory S).map (Answer.done, ·)
  | vappend format => some (.done, S.vappend memory format)
  | replace a b => (S.replace memory a b).map fun replaced => (.number replaced.1, replaced.2)
  | indexOf s => (S.indexOf s).map (.number ·, S)
  | lastIndexOf s => (S.lastIndexOf s).map (.number ·, S)
  | substring index => (S.substring index).map (.text ·, S)
  | length => some (.number S.used, S)
  | toString => some (.text S.toString, S)

def performAll (memory : RawMemory) (S : StringBuffer) :
    List Call → Option (List Answer × StringBuffer)
  | [] => some ([], S)
  | call :: calls => do
      let (answer, next) ← call.perform memory S
      let (answers, last) ← performAll memory next calls
      return (answer :: answers, last)

/-! The text. -/

/-- The empty pattern is never replaced. -/
def replaced (a b : CText) (text : Bytes) : Nat × Bytes :=
  if a.bytes = [] then (0, text)
  else (disjointCount a.bytes 0 text, replaceAll a.bytes b.bytes 0 text)

/-- The text that a call leaves; `none` where it has to fail. -/
def Call.leave (text : Bytes) : Call → Option Bytes
  | edit operation => operation.edit text
  | vappend format => some (text ++ format.text)
  | replace a b => some (replaced a b text).2
  | substring index => if 0 ≤ index ∧ index ≤ text.length then some text else none
  | _ => some text

def leaveAll (text : Bytes) : List Call → Option Bytes
  | [] => some text
  | call :: calls => (call.leave text).bind (leaveAll · calls)

/-- What a call has to answer. The empty string is never found. -/
def Call.Answers (text : Bytes) : Call → Answer → Prop
  | edit _, answer => answer = .done
  | vappend _, answer => answer = .done
  | replace a b, answer => answer = .number (replaced a b text).1
  | indexOf s, answer => ∃ index, answer = .number index ∧
      if s.bytes = [] then index = -1 else IsFirst s.bytes text index
  | lastIndexOf s, answer => ∃ index, answer = .number index ∧
      if s.bytes = [] then index = -1 else IsLast s.bytes text index
  | substring index, answer => answer = .text (text.drop index.toNat)
  | length, answer => answer = .number text.length
  | toString, answer => answer = .text text

def Answered (text : Bytes) : List Call → List Answer → Prop
  | [], [] => True
  | call :: calls, answer :: answers => call.Answers text answer ∧
      ∃ left, call.leave text = some left ∧ Answered left calls answers
  | _, _ => False

/-- The calls that the code answers rightly: a search string of ASCII characters, and a
pattern that cannot overlap itself. -/
def Call.Plain : Call → Prop
  | replace a _ => Ascii a.bytes ∧ Unbordered a.bytes
  | indexOf s => Ascii s.bytes
  | lastIndexOf s => Ascii s.bytes
  | _ => True

/-- An append lets the buffer grow if the text and a NUL do not fit into it. -/
def grownSize (text : Bytes) (before : Nat) (format : Format) : Nat :=
  if text.length + format.text.length < before then before
  else before + (bufferStrlen + format.text.length)

/-- The size of the buffer behind a call; no call makes it smaller. -/
def Call.size (text : Bytes) (before : Nat) : Call → Nat
  | edit (.append format) => grownSize text before format
  | vappend format => grownSize text before format
  | replace a b => max before ((replaced a b text).2.length + 1)
  | _ => before

/-- No size on the way exceeds an `int`. -/
def Fits (text : Bytes) (size : Nat) : List Call → Prop
  | [] => size < 2 ^ 31
  | call :: calls => size < 2 ^ 31 ∧
      ∀ left, call.leave text = some left → Fits left (call.size text size) calls

theorem Fits.int {text : Bytes} {size : Nat} {calls : List Call} (fits : Fits text size calls) :
    size < 2 ^ 31 := by
  cases calls with
  | nil => exact fits
  | cons call calls => exact fits.1

theorem Format.undefined_text {format : Format} (undefined : ¬format.defined = true) :
    format.text = [] := by
  cases format with
  | string argument => exact absurd rfl undefined
  | char argument visible => exact absurd rfl undefined
  | literal text plain => simpa [Format.defined, Format.text] using undefined

namespace StringBuffer

variable (memory : RawMemory) {S : StringBuffer} {text : Bytes}

theorem Represents.substring (represents : S.Represents text) {index : Int}
    (inside : 0 ≤ index ∧ index ≤ text.length) :
    S.substring index = some (text.drop index.toNat) := by
  obtain ⟨rest, stored⟩ := represents.stored
  have visible : 0 ∉ text.drop index.toNat := fun member =>
    represents.visible (List.mem_of_mem_drop member)
  rw [StringBuffer.substring, represents.used, if_pos inside, stored,
    List.drop_append_of_le_length (by omega), cString_ended visible]

theorem growFor_length (holds : S.Holds text) (int : S.length < 2 ^ 31) {a b : Bytes}
    (nonempty : a ≠ [])
    (occurs : 0 < disjointCount a 0 text) (fits : (replaceAll a b 0 text).length + 1 < 2 ^ 31)
    {grown : StringBuffer} (growth : growFor memory S a b (disjointCount a 0 text) = some grown) :
    grown.length = max S.length ((replaceAll a b 0 text).length + 1) := by
  have used := holds.used
  have room := holds.room
  have sizes := replaceAll_length nonempty b text
  have replacement := replacement_le (b := b) nonempty occurs
  have pattern : a.length ≤ text.length :=
    (Nat.le_mul_of_pos_left a.length occurs).trans (disjointCount_mul_le nonempty)
  have required := @required_eq a b text nonempty (by omega) (by omega)
  rw [growFor] at growth
  simp only [used, required] at growth
  split at growth
  · split at growth
    · rename_i larger
      rw [resizeInt_eq memory holds larger fits] at growth
      cases growth
      exact (Nat.max_eq_right larger).symm
    · cases growth
      exact (Nat.max_eq_left (by omega)).symm
  · cases growth
    have same : b.length = a.length := by omega
    rw [same] at sizes
    exact (Nat.max_eq_left (by omega)).symm

section Replace

variable {a b : CText}

theorem Represents.replace_within (represents : S.Represents text) (int : S.length < 2 ^ 31)
    (nonempty : a.bytes ≠ []) (ascii : Ascii a.bytes) (disjoint : Disjoint a.bytes text)
    (fits : (replaceAll a.bytes b.bytes 0 text).length + 1 < 2 ^ 31) :
    ∃ result, replace memory S a b = some (disjointCount a.bytes 0 text, result) ∧
      result.Represents (replaceAll a.bytes b.bytes 0 text) ∧
      result.length = max S.length ((replaceAll a.bytes b.bytes 0 text).length + 1) := by
  have counted : count a.bytes text = disjointCount a.bytes 0 text :=
    ((disjointCount_eq_iff nonempty 0 text).mpr ⟨by omega, disjoint⟩).symm
  rcases Nat.eq_zero_or_pos (disjointCount a.bytes 0 text) with absent | occurs
  · have unchanged := replaceAll_absent b.bytes absent
    refine ⟨S, ?_, ?_, ?_⟩
    · rw [replace, if_neg nonempty, represents.countMatches, if_pos ascii, counted, absent]
      rfl
    · rw [unchanged]
      exact represents
    · have room := represents.holds.room
      rw [represents.used] at room
      rw [unchanged]
      exact (Nat.max_eq_left room).symm
  · obtain ⟨result, replaced, holds, _⟩ :=
      represents.replaces_occurs memory int nonempty ascii disjoint occurs fits
    refine ⟨result, replaced, holds, ?_⟩
    obtain ⟨grown, growth, grownHolds, enough, _⟩ :=
      growFor_holds memory represents.holds int nonempty occurs fits
    obtain ⟨looped, loop, _, length⟩ :=
      @replaceLoop_replaces _ b.bytes nonempty ascii text grown [] grownHolds (by simpa using enough)
    have bounded := growFor_length memory represents.holds int nonempty occurs fits growth
    rw [List.length_nil] at loop
    rw [replace, if_neg nonempty, represents.countMatches, if_pos ascii, counted] at replaced
    simp only [Option.bind_eq_bind, Option.bind_some, occurs.ne', if_false, growth, loop,
      Option.bind_eq_some_iff] at replaced
    obtain ⟨buffer, _, returned⟩ := replaced
    cases returned
    exact length.trans bounded

end Replace

theorem Represents.appendFormat_size (represents : S.Represents text) (format : Format) :
    (S.appendFormat memory format).length = grownSize text S.length format := by
  have room := represents.holds.room
  rw [StringBuffer.appendFormat, grownSize, ← represents.used]
  split
  · exact append_size memory room format.text
  · rename_i undefined
    have empty : format.text = [] := Format.undefined_text undefined
    rw [empty, List.length_nil, Nat.add_zero, if_pos room]

theorem Represents.edit_size (represents : S.Represents text) {operation : Operation}
    {result : StringBuffer} (performed : operation.perform memory S = some result) :
    result.length = (Call.edit operation).size text S.length := by
  cases operation with
  | append format =>
      cases performed
      exact represents.appendFormat_size memory format
  | trim =>
      cases performed
      exact trim_length S
  | clear =>
      cases performed
      rfl
  | delete index =>
      rw [Operation.perform, StringBuffer.delete] at performed
      split at performed
      · cases performed
        rfl
      · cases performed

theorem Represents.call (represents : S.Represents text) {call : Call} (plain : call.Plain)
    (int : S.length < 2 ^ 31)
    (next : ∀ left, call.leave text = some left → call.size text S.length < 2 ^ 31) :
    Option.Rel (fun (result : Answer × StringBuffer) left => call.Answers text result.1 ∧
        result.2.Represents left ∧ result.2.length = call.size text S.length)
      (call.perform memory S) (call.leave text) := by
  cases call with
  | edit operation =>
      have performed := represents.perform memory operation
      rw [Call.perform, Call.leave]
      generalize made : operation.perform memory S = result at performed ⊢
      generalize operation.edit text = edited at performed ⊢
      cases performed with
      | none => exact .none
      | some both => exact .some ⟨rfl, both.1, represents.edit_size memory made⟩
  | vappend format =>
      have same : S.vappend memory format = S.appendFormat memory format := rfl
      rw [Call.perform, Call.leave, same]
      exact .some ⟨rfl, represents.appendFormat memory format,
        represents.appendFormat_size memory format⟩
  | replace a b =>
      obtain ⟨ascii, unbordered⟩ := plain
      have fits : max S.length ((replaced a b text).2.length + 1) < 2 ^ 31 := next _ rfl
      rw [Call.perform, Call.leave]
      by_cases empty : a.bytes = []
      · have kept : replaced a b text = (0, text) := if_pos empty
        have room := represents.holds.room
        rw [represents.used] at room
        rw [StringBuffer.replace, if_pos empty]
        refine .some ⟨?_, ?_, ?_⟩
        · simp only [Call.Answers, kept]
        · rw [kept]
          exact represents
        · rw [Call.size, kept]
          exact (Nat.max_eq_left room).symm
      · have changed : replaced a b text =
            (disjointCount a.bytes 0 text, replaceAll a.bytes b.bytes 0 text) := if_neg empty
        rw [changed] at fits
        change max S.length ((replaceAll a.bytes b.bytes 0 text).length + 1) < 2 ^ 31 at fits
        obtain ⟨result, done, holds, grown⟩ := represents.replace_within memory int empty ascii
          (unbordered.disjoint text) (b := b) (by omega)
        rw [done]
        refine .some ⟨?_, ?_, ?_⟩
        · simp only [Call.Answers, changed]
        · rw [changed]
          exact holds
        · rw [Call.size, changed]
          exact grown
  | indexOf s =>
      by_cases empty : s.bytes = []
      · rw [Call.perform, StringBuffer.indexOf, if_pos empty]
        exact .some ⟨⟨-1, rfl, by rw [if_pos empty]⟩, represents, rfl⟩
      · obtain ⟨index, found, first⟩ := represents.indexOf_first empty plain
        rw [Call.perform, found]
        exact .some ⟨⟨index, rfl, by rwa [if_neg empty]⟩, represents, rfl⟩
  | lastIndexOf s =>
      by_cases empty : s.bytes = []
      · rw [Call.perform, StringBuffer.lastIndexOf, if_pos empty]
        exact .some ⟨⟨-1, rfl, by rw [if_pos empty]⟩, represents, rfl⟩
      · obtain ⟨index, found, last⟩ := represents.lastIndexOf_last empty plain
        rw [Call.perform, found]
        exact .some ⟨⟨index, rfl, by rwa [if_neg empty]⟩, represents, rfl⟩
  | substring index =>
      rw [Call.perform, Call.leave]
      by_cases inside : 0 ≤ index ∧ index ≤ text.length
      · rw [represents.substring inside, if_pos inside]
        exact .some ⟨rfl, represents, rfl⟩
      · rw [StringBuffer.substring, represents.used, if_neg inside, if_neg inside]
        exact .none
  | length =>
      exact .some ⟨congrArg (fun used : Nat => Answer.number used) represents.used, represents, rfl⟩
  | toString => exact .some ⟨congrArg Answer.text represents.toString, represents, rfl⟩

/-- For every run of calls the buffer holds the text that the calls leave, and answers what
they have to answer; it fails exactly where an assertion of the code does. -/
theorem calls_answered (represents : S.Represents text) {calls : List Call}
    (plain : ∀ call ∈ calls, call.Plain) (fits : Fits text S.length calls) :
    Option.Rel (fun (result : List Answer × StringBuffer) left =>
        Answered text calls result.1 ∧ result.2.Represents left)
      (performAll memory S calls) (leaveAll text calls) := by
  induction calls generalizing S text with
  | nil => exact .some ⟨trivial, represents⟩
  | cons call calls ih =>
      obtain ⟨int, later⟩ := fits
      have first := represents.call memory (plain call List.mem_cons_self) int
        fun left leaves => (later left leaves).int
      rw [performAll, leaveAll]
      generalize performed : call.perform memory S = result at first ⊢
      generalize leaves : call.leave text = left at first later ⊢
      cases first with
      | none => exact .none
      | some both =>
          rename_i result left
          obtain ⟨answers, holds, size⟩ := both
          have rest := ih holds (fun other member => plain other (List.mem_cons_of_mem call member))
            (size ▸ later left rfl)
          simp only [Option.bind_eq_bind, Option.bind_some]
          generalize performAll memory result.2 calls = finished at rest ⊢
          generalize leaveAll left calls = last at rest ⊢
          cases rest with
          | none => exact .none
          | some ends => exact .some ⟨⟨answers, left, leaves, ends.1⟩, ends.2⟩

/-- In "cbc" the "c" are replaced by "b", a "b" is appended, and the last "b" is searched. -/
def sampleCalls : List Call :=
  [.replace singleLetter otherLetter, .vappend (.char 98 (by decide)), .lastIndexOf otherLetter,
    .substring 1]

theorem calls_answered_sample :
    ∃ answers result, performAll (fun _ _ => 0) ⟨3, 4, [99, 98, 99, 0]⟩ sampleCalls =
      some (answers, result) ∧ Answered [99, 98, 99] sampleCalls answers ∧
        result.toString = [98, 98, 98, 98] := by
  have represents : Represents ⟨3, 4, [99, 98, 99, 0]⟩ [99, 98, 99] :=
    ⟨rfl, rfl, ⟨[], rfl⟩, by decide⟩
  have single : Unbordered singleLetter.bytes := by
    intro shift positive short
    change shift < 1 at short
    omega
  have plain : ∀ call ∈ sampleCalls, call.Plain := by
    have search : Ascii otherLetter.bytes := by decide
    simp only [sampleCalls, List.forall_mem_cons]
    exact ⟨⟨by decide, single⟩, trivial, search, trivial, List.forall_mem_nil _⟩
  have fits : Fits [99, 98, 99] 4 sampleCalls := by
    refine ⟨by decide, ?_⟩
    rintro _ ⟨⟩
    refine ⟨by decide, ?_⟩
    rintro _ ⟨⟩
    refine ⟨by decide, ?_⟩
    rintro _ ⟨⟩
    refine ⟨by decide, ?_⟩
    rintro _ ⟨⟩
    exact show _ < 2 ^ 31 by decide
  have run := calls_answered (fun _ _ => 0) represents plain fits
  have leaves : leaveAll [99, 98, 99] sampleCalls = some [98, 98, 98, 98] := by decide
  rw [leaves] at run
  generalize performed : performAll (fun _ _ => 0) ⟨3, 4, [99, 98, 99, 0]⟩ sampleCalls = result at run ⊢
  cases run with
  | some ends =>
      rename_i finished
      obtain ⟨answered, holds⟩ := ends
      exact ⟨finished.1, finished.2, rfl, answered, holds.toString⟩

end StringBuffer

end SimpleProcessMonitor
