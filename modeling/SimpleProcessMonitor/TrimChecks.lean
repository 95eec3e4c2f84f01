import SimpleProcessMonitor.StringBufferChecks
import SimpleProcessMonitor.StringBufferEditCore

/-!
Trimming a string buffer and trimming a C string: both leave the same memory. The counters of
the loops never exceed the length of the text, which a string buffer keeps in an `int`.
-/

namespace SimpleProcessMonitor

open CString Strip

theorem trim_eq_strip (text : Bytes) : CString.trim text = strip isspace text := rfl

/-- The bytes from 128 on are negative as a plain `char`, and white space is positive. -/
theorem isspaceChar_eq (char : UInt8) : Str.isspaceChar char = isspace char := by
  have bound := char.toNat_lt
  have unsigned : isspace char = true ↔ char.toNat = 32 ∨ 9 ≤ char.toNat ∧ char.toNat ≤ 13 := by
    simp [isspace, UInt8.le_iff_toNat_le, ← UInt8.toNat_inj]
  have signed : Str.isspaceChar char = true ↔
      promoteChar char = 32 ∨ 9 ≤ promoteChar char ∧ promoteChar char ≤ 13 := by
    simp [Str.isspaceChar]
  rw [Bool.eq_iff_iff, unsigned, signed, promoteChar]
  split <;> omega

theorem isspaceChar_funext : Str.isspaceChar = isspace := funext isspaceChar_eq

section Passes

variable {s : Bytes} {first : UInt8}

theorem ltrim_visible (read : s[0]? = some first) (visible : isspace first = false) :
    Str.ltrim s = some s := by
  simp [Str.ltrim, read, isspaceChar_eq, visible]

theorem ltrim_blank (read : s[0]? = some first) (blank : isspace first = true) {j i : Nat}
    (length : scan (· != 0) s = some j) (spaces : scan isspace s = some i) :
    Str.ltrim s = dropFront s j i 0 := by
  have nonzero : first ≠ 0 := by
    rintro rfl
    cases blank
  simp [Str.ltrim, read, isspaceChar_funext, blank, nonzero, length, spaces]

theorem rtrim_nonempty (read : s[0]? = some first) (nonzero : first ≠ 0) {length : Nat}
    (counted : scan (· != 0) s = some length) :
    Str.rtrim s = (clearBack isspace 0 length s).map Prod.snd := by
  simp [Str.rtrim, read, nonzero, counted, isspaceChar_funext, Option.map_eq_bind]

variable {S : StringBuffer} {used : Nat} {buffer : Bytes}

theorem trimChecked_visible (cleared : clearBack isspace 0 S.used S.buffer = some (used, buffer))
    (read : buffer[0]? = some first) (visible : isspace first = false) :
    S.trimChecked = some { S with used := used, buffer := buffer } := by
  simp [StringBuffer.trimChecked, cleared, read, visible]

theorem trimChecked_blank (cleared : clearBack isspace 0 S.used S.buffer = some (used, buffer))
    (read : buffer[0]? = some first) (blank : isspace first = true) {i : Nat}
    (spaces : scan isspace buffer = some i) :
    S.trimChecked = (dropFront buffer used i 0).map fun moved =>
      { S with used := used - i, buffer := moved } := by
  simp [StringBuffer.trimChecked, cleared, read, blank, spaces, Option.map_eq_bind]

end Passes

/-- The memory of a text that was trimmed, with what the two passes leave behind its new NUL. -/
def trimmedMemory (lead inner trail rest : Bytes) : Bytes :=
  inner ++ 0 :: ((lead ++ (inner ++ [0])).drop (inner.length + 1) ++
    (List.replicate trail.length 0 ++ rest))

/-- The parts of a text, where the right end is cut first. -/
structure Runs (lead inner trail : Bytes) : Prop where
  leading : ∀ byte ∈ lead, isspace byte = true
  trailing : ∀ byte ∈ trail, isspace byte = true
  first : ∀ byte ∈ inner.head?, isspace byte = false
  last : ∀ byte ∈ (lead ++ inner).getLast?, isspace byte = false
  visible : 0 ∉ lead ++ (inner ++ trail)

namespace Runs

variable {lead inner trail : Bytes}

theorem scan_text {text : Bytes} (visible : 0 ∉ text) (rest : Bytes) :
    scan (· != 0) (text ++ 0 :: rest) = some text.length := by
  refine scan_append (fun byte member => ?_) rfl rest
  rw [bne_iff_ne]
  rintro rfl
  exact visible member

theorem replicate_zero (count : Nat) (rest : Bytes) :
    List.replicate count 0 ++ 0 :: rest = 0 :: (List.replicate count 0 ++ rest) := by
  rw [List.append_cons, ← List.replicate_succ', List.replicate_succ, List.cons_append]

theorem front_visible (runs : Runs lead inner trail) : 0 ∉ lead ++ inner := by
  have visible := runs.visible
  rw [← List.append_assoc] at visible
  exact fun member => visible (List.mem_append_left trail member)

theorem read_first (runs : Runs lead inner trail) (back : Bytes) :
    ∃ byte, (lead ++ (inner ++ 0 :: back))[0]? = some byte ∧
      isspace byte = decide (lead ≠ []) := by
  cases lead with
  | cons byte lead => exact ⟨byte, rfl, runs.leading byte List.mem_cons_self⟩
  | nil =>
      cases inner with
      | cons byte inner => exact ⟨byte, rfl, runs.first byte rfl⟩
      | nil => exact ⟨0, rfl, rfl⟩

theorem scan_lead (runs : Runs lead inner trail) (back : Bytes) :
    scan isspace (lead ++ (inner ++ 0 :: back)) = some lead.length := by
  cases inner with
  | cons byte inner => exact scan_append runs.leading (runs.first byte rfl) (inner ++ 0 :: back)
  | nil => exact scan_append runs.leading rfl back

theorem clearBack_trail (runs : Runs lead inner trail) (rest : Bytes) :
    clearBack isspace 0 (lead ++ inner ++ trail).length (lead ++ (inner ++ (trail ++ 0 :: rest))) =
      some ((lead ++ inner).length,
        lead ++ (inner ++ 0 :: (List.replicate trail.length 0 ++ rest))) := by
  have cleared := clearBack_append runs.last runs.trailing 0 (0 :: rest)
  rw [replicate_zero] at cleared
  simpa only [List.append_assoc] using cleared

theorem dropFront_lead (lead inner trail rest : Bytes) :
    dropFront (lead ++ (inner ++ 0 :: (List.replicate trail.length 0 ++ rest)))
      (lead ++ inner).length lead.length 0 = some (trimmedMemory lead inner trail rest) :=
  dropFront_append lead inner (List.replicate trail.length 0 ++ rest) 0 0

theorem trimmedMemory_nil (inner trail rest : Bytes) :
    trimmedMemory [] inner trail rest =
      inner ++ 0 :: (List.replicate trail.length 0 ++ rest) := by
  simp [trimmedMemory]

theorem rtrim (runs : Runs lead inner trail) (rest : Bytes) :
    Str.rtrim (lead ++ (inner ++ (trail ++ 0 :: rest))) =
      some (lead ++ (inner ++ 0 :: (List.replicate trail.length 0 ++ rest))) := by
  have cleared := runs.clearBack_trail rest
  have visible := runs.visible
  have block : lead ++ (inner ++ (trail ++ 0 :: rest)) = lead ++ inner ++ trail ++ 0 :: rest := by
    simp
  rw [← List.append_assoc] at visible
  have length := scan_text visible rest
  cases text : lead ++ inner ++ trail with
  | nil =>
      obtain ⟨front, rfl⟩ := List.append_eq_nil_iff.mp text
      obtain ⟨rfl, rfl⟩ := List.append_eq_nil_iff.mp front
      rfl
  | cons byte others =>
      have read : (lead ++ (inner ++ (trail ++ 0 :: rest)))[0]? = some byte := by
        rw [block, text]
        rfl
      have nonzero : byte ≠ 0 := by
        rintro rfl
        exact visible (text ▸ List.mem_cons_self)
      rw [← block] at length
      rw [rtrim_nonempty read nonzero length, cleared]
      rfl

theorem ltrim (runs : Runs lead inner trail) (rest : Bytes) :
    Str.ltrim (lead ++ (inner ++ 0 :: (List.replicate trail.length 0 ++ rest))) =
      some (trimmedMemory lead inner trail rest) := by
  obtain ⟨byte, read, blank⟩ := runs.read_first (List.replicate trail.length 0 ++ rest)
  by_cases empty : lead = []
  · subst empty
    rw [ltrim_visible read blank, trimmedMemory_nil]
    rfl
  · have found : isspace byte = true := by
      rw [blank]
      exact decide_eq_true empty
    have length := scan_text runs.front_visible (List.replicate trail.length 0 ++ rest)
    rw [List.append_assoc] at length
    rw [ltrim_blank read found length (runs.scan_lead _)]
    exact dropFront_lead lead inner trail rest

theorem trim (runs : Runs lead inner trail) (rest : Bytes) :
    Str.trim (lead ++ (inner ++ (trail ++ 0 :: rest))) =
      some (trimmedMemory lead inner trail rest) := by
  rw [Str.trim, runs.rtrim rest, Option.bind_some, runs.ltrim rest]

theorem trimChecked (runs : Runs lead inner trail) (rest : Bytes) (length : Nat) :
    StringBuffer.trimChecked
        ⟨(lead ++ inner ++ trail).length, length, lead ++ (inner ++ (trail ++ 0 :: rest))⟩ =
      some ⟨inner.length, length, trimmedMemory lead inner trail rest⟩ := by
  obtain ⟨byte, read, blank⟩ := runs.read_first (List.replicate trail.length 0 ++ rest)
  have cleared := runs.clearBack_trail rest
  by_cases empty : lead = []
  · subst empty
    rw [trimChecked_visible cleared read blank, trimmedMemory_nil]
    rfl
  · have found : isspace byte = true := by
      rw [blank]
      exact decide_eq_true empty
    have used : (lead ++ inner).length - lead.length = inner.length := by
      rw [List.length_append]
      omega
    rw [trimChecked_blank cleared read found (runs.scan_lead _), dropFront_lead, used]
    rfl

end Runs

/-! The trimming of the scan. -/

theorem byteAt_eq {S : StringBuffer} {index : Nat} {byte : UInt8}
    (read : S.buffer[index]? = some byte) : S.byteAt index = byte := by
  rw [StringBuffer.byteAt, List.getD_eq_getElem?_getD, read]
  rfl

theorem rightTrim_eq {used kept : Nat} {S : StringBuffer} {buffer : Bytes} (start : S.used = used)
    (cleared : clearBack isspace 0 used S.buffer = some (kept, buffer)) :
    S.rightTrim used = { S with used := kept, buffer := buffer } := by
  induction used generalizing S with
  | zero =>
      cases cleared
      have same : S.rightTrim 0 = S := rfl
      rw [same, ← start]
  | succ used ih =>
      rw [clearBack] at cleared
      cases read : S.buffer[used]? with
      | none =>
          rw [read] at cleared
          cases cleared
      | some last =>
          rw [StringBuffer.rightTrim, byteAt_eq read]
          rw [read] at cleared
          dsimp only at cleared
          split at cleared
          · rename_i blank
            obtain ⟨written, write, later⟩ := Option.bind_eq_some_iff.mp cleared
            rw [if_pos blank, ← Block.write_eq_set write]
            exact @ih { S with used := used, buffer := written } rfl later
          · rename_i visible
            cases cleared
            rw [if_neg visible, ← start]

theorem leftTrim_visible {S : StringBuffer} {first : UInt8} (read : S.buffer[0]? = some first)
    (visible : isspace first = false) : S.leftTrim = S := by
  rw [StringBuffer.leftTrim, byteAt_eq read, visible]
  rfl

theorem leftTrim_blank {S : StringBuffer} {first : UInt8} {i : Nat} {moved : Bytes}
    (read : S.buffer[0]? = some first) (blank : isspace first = true)
    (spaces : scan isspace S.buffer = some i) (dropped : dropFront S.buffer S.used i 0 = some moved) :
    S.leftTrim = { S with used := S.used - i, buffer := moved } := by
  rw [StringBuffer.leftTrim, byteAt_eq read, if_pos blank, ← scan_eq spaces,
    dropFront_eq dropped]

theorem trimChecked_eq {S result : StringBuffer} (ran : S.trimChecked = some result) :
    S.trim = result := by
  cases cleared : clearBack isspace 0 S.used S.buffer with
  | none => simp [StringBuffer.trimChecked, cleared] at ran
  | some right =>
      obtain ⟨used, buffer⟩ := right
      rw [StringBuffer.trim, rightTrim_eq rfl cleared]
      cases read : buffer[0]? with
      | none => simp [StringBuffer.trimChecked, cleared, read] at ran
      | some first =>
          cases blank : isspace first with
          | false =>
              rw [trimChecked_visible cleared read blank] at ran
              rw [← Option.some.inj ran]
              exact leftTrim_visible read blank
          | true =>
              cases spaces : scan isspace buffer with
              | none => simp [StringBuffer.trimChecked, cleared, read, blank, spaces] at ran
              | some i =>
                  rw [trimChecked_blank cleared read blank spaces] at ran
                  obtain ⟨moved, dropped, rfl⟩ := Option.map_eq_some_iff.mp ran
                  exact leftTrim_blank (S := ⟨used, S.length, buffer⟩) read blank spaces dropped

/-- Both functions turn one text into the other whatever stands behind its NUL, which is
neither read nor written; with nothing behind it, an access past the NUL would fail. -/
structure TrimsTo (text inner fill : Bytes) : Prop where
  string : ∀ rest, Str.trim (text ++ 0 :: rest) = some (inner ++ 0 :: (fill ++ rest))
  buffer : ∀ rest length,
    StringBuffer.trimChecked ⟨text.length, length, text ++ 0 :: rest⟩ =
      some ⟨inner.length, length, inner ++ 0 :: (fill ++ rest)⟩

theorem Runs.trimsTo {lead inner trail : Bytes} (runs : Runs lead inner trail) :
    TrimsTo (lead ++ (inner ++ trail)) inner
      ((lead ++ (inner ++ [0])).drop (inner.length + 1) ++ List.replicate trail.length 0) where
  string rest := by
    have trimmed := runs.trim rest
    simpa only [trimmedMemory, List.append_assoc] using trimmed
  buffer rest length := by
    have trimmed := runs.trimChecked rest length
    simpa only [trimmedMemory, List.append_assoc] using trimmed

theorem exists_runs_text (text : CText) :
    ∃ lead trail, text.bytes = lead ++ (strip isspace text.bytes ++ trail) ∧
      Runs lead (strip isspace text.bytes) trail := by
  obtain ⟨lead, trail, whole, leading, trailing, last⟩ := exists_runs isspace text.bytes
  have first := (strip_stripped isspace text.bytes).first
  exact ⟨lead, trail, whole, leading, trailing, first, last, whole ▸ text.visible⟩

theorem strip_visible (text : CText) : 0 ∉ strip isspace text.bytes := by
  obtain ⟨lead, trail, whole, runs⟩ := exists_runs_text text
  exact fun member => runs.front_visible (List.mem_append_right lead member)

theorem exists_trimsTo (text : CText) :
    ∃ fill, (strip isspace text.bytes).length + fill.length = text.bytes.length ∧
      TrimsTo text.bytes (strip isspace text.bytes) fill := by
  obtain ⟨lead, trail, whole, runs⟩ := exists_runs_text text
  have trimmed := runs.trimsTo
  rw [← whole] at trimmed
  refine ⟨_, ?_, trimmed⟩
  have length := congrArg List.length whole
  simp only [List.length_append] at length
  simp only [List.length_append, List.length_drop, List.length_replicate, List.length_singleton]
  omega

theorem trimsTo_self (text : CText) :
    TrimsTo (strip isspace text.bytes) (strip isspace text.bytes) [] := by
  obtain ⟨fill, length, trimmed⟩ := exists_trimsTo ⟨strip isspace text.bytes, strip_visible text⟩
  dsimp only at length trimmed
  rw [strip_idem] at length trimmed
  have none : fill = [] := List.eq_nil_of_length_eq_zero (by omega)
  exact none ▸ trimmed

/-- Trimming a C string and trimming a string buffer leave the same memory, which holds the text
between its runs of white space and stays as it is when it is trimmed again. -/
theorem trim_agrees (text : CText) :
    ∃ inner fill, Stripped isspace text.bytes inner ∧
      (∀ other, Stripped isspace text.bytes other → other = inner) ∧
      ((∀ byte ∈ text.bytes, isspace byte = true) → inner = []) ∧
      inner.length + fill.length = text.bytes.length ∧
      (∀ rest, cString (inner ++ 0 :: (fill ++ rest)) = inner) ∧
      TrimsTo text.bytes inner fill ∧ TrimsTo inner inner [] := by
  obtain ⟨fill, length, trimmed⟩ := exists_trimsTo text
  have stripped := strip_stripped isspace text.bytes
  exact ⟨strip isspace text.bytes, fill, stripped, fun _ second => second.unique stripped,
    stripped.empty, length, fun rest => cString_ended (strip_visible text) (fill ++ rest),
    trimmed, trimsTo_self text⟩

namespace StringBuffer.Represents

variable {S : StringBuffer} {text : Bytes}

theorem exists_trimmed (represents : S.Represents text) :
    ∃ rest, S.trimChecked = some ⟨(strip isspace text).length, S.length,
        strip isspace text ++ 0 :: rest⟩ ∧
      (strip isspace text ++ 0 :: rest).length = S.length := by
  obtain ⟨rest, stored⟩ := represents.stored
  obtain ⟨fill, length, trimmed⟩ := exists_trimsTo ⟨text, represents.visible⟩
  have ran := trimmed.buffer rest S.length
  rw [← stored, ← represents.used] at ran
  refine ⟨fill ++ rest, ran, ?_⟩
  have size := represents.size
  rw [stored] at size
  simp only [List.length_append, List.length_cons] at size ⊢
  dsimp only at length
  omega

/-- In the scan no access of the trimming leaves the buffer. -/
theorem trimChecked (represents : S.Represents text) : S.trimChecked = some S.trim := by
  obtain ⟨rest, ran, _⟩ := represents.exists_trimmed
  exact ran.trans (congrArg some (trimChecked_eq ran).symm)

theorem trim (represents : S.Represents text) : S.trim.Represents (CString.trim text) := by
  obtain ⟨rest, ran, size⟩ := represents.exists_trimmed
  rw [trimChecked_eq ran]
  exact ⟨rfl, size, ⟨rest, rfl⟩, strip_visible ⟨text, represents.visible⟩⟩

end StringBuffer.Represents

theorem exists_terminated (text rest : Bytes) :
    ∃ behind, text ++ 0 :: rest = cString text ++ 0 :: behind := by
  induction text with
  | nil => exact ⟨rest, rfl⟩
  | cons byte text ih =>
      by_cases zero : byte = 0
      · exact ⟨text ++ 0 :: rest, by simp [cString, zero]⟩
      · obtain ⟨behind, later⟩ := ih
        have front : cString (byte :: text) = byte :: cString text := by simp [cString, zero]
        refine ⟨behind, ?_⟩
        rw [List.cons_append, later, front, List.cons_append]

/-- What `Str_trim` leaves in the buffer that the attribute was read into. -/
theorem attrCurrent_trim {files : ProcFiles} {text : Bytes}
    (read : files.attrCurrent = .content text) (data : ProcData) (rest : Bytes) :
    ∃ memory, Str.trim (text.take (bufferStrlen - 1) ++ 0 :: rest) = some memory ∧
      (parseProcPidAttrCurrent files data).2.secattr = cString memory := by
  obtain ⟨behind, block⟩ := exists_terminated (text.take (bufferStrlen - 1)) rest
  have visible := cString_visible (text.take (bufferStrlen - 1))
  obtain ⟨fill, _, trimmed⟩ := exists_trimsTo ⟨_, visible⟩
  refine ⟨_, block ▸ trimmed.string behind, ?_⟩
  rw [cString_ended (strip_visible ⟨_, visible⟩), ← trim_eq_strip]
  simp [parseProcPidAttrCurrent, read]

end SimpleProcessMonitor
