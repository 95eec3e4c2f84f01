import SimpleProcessMonitor.StrEditCore
import SimpleProcessMonitor.TrimChecks

/-!
Strings that are changed in place: what each function makes of the text, and that it neither
reads nor writes behind its NUL.
-/

namespace SimpleProcessMonitor

open CString Strip

namespace Str

/-- The function turns one text into the other, and leaves the same bytes behind the new NUL
whatever stands behind the old one. -/
def EditsTo (edit : Bytes → Option Bytes) (text result : Bytes) : Prop :=
  ∃ fill, result.length + fill.length = text.length ∧
    ∀ rest, edit (text ++ 0 :: rest) = some (result ++ 0 :: (fill ++ rest))

section Runs

variable {first second : Bytes → Option Bytes} {text middle result : Bytes}

theorem editsTo_same (same : ∀ rest, first (text ++ 0 :: rest) = some (text ++ 0 :: rest)) :
    EditsTo first text text :=
  ⟨[], rfl, same⟩

theorem EditsTo.comp (one : EditsTo first text middle) (two : EditsTo second middle result) :
    EditsTo (fun s => (first s).bind second) text result := by
  obtain ⟨fill, length, edits⟩ := one
  obtain ⟨other, shorter, later⟩ := two
  refine ⟨other ++ fill, ?_, fun rest => ?_⟩
  · rw [List.length_append]
    omega
  · dsimp only
    rw [edits, Option.bind_some, later, List.append_assoc]

end Runs

/-! Bytes that are exchanged one by one. -/

section Bytes

variable {text : Bytes}

/-- The first zero that is stored ends the string. -/
theorem exists_takeWhile (bytes : Bytes) :
    ∃ fill, (bytes.takeWhile (· != 0)).length + fill.length = bytes.length ∧
      ∀ rest, bytes ++ 0 :: rest = bytes.takeWhile (· != 0) ++ 0 :: (fill ++ rest) := by
  induction bytes with
  | nil => exact ⟨[], rfl, fun _ => rfl⟩
  | cons byte bytes ih =>
      by_cases zero : byte = 0
      · subst zero
        exact ⟨bytes ++ [0], by simp, by simp⟩
      · obtain ⟨fill, length, same⟩ := ih
        have kept : (byte :: bytes).takeWhile (· != 0) = byte :: bytes.takeWhile (· != 0) := by
          simp [zero]
        refine ⟨fill, ?_, fun rest => ?_⟩
        · rw [kept, List.length_cons, List.length_cons]
          omega
        · rw [kept, List.cons_append, same, List.cons_append]

theorem convert_text (change : UInt8 → UInt8) (visible : 0 ∉ text) (rest : Bytes) :
    convert change (text ++ 0 :: rest) = some (text.map change ++ 0 :: rest) := by
  induction text with
  | nil => rfl
  | cons char text ih =>
      rw [List.mem_cons, not_or] at visible
      rw [List.cons_append, convert, if_neg (Ne.symm visible.1), ih visible.2]
      rfl

theorem convert_editsTo (change : UInt8 → UInt8) (visible : 0 ∉ text) :
    EditsTo (convert change) text ((text.map change).takeWhile (· != 0)) := by
  obtain ⟨fill, length, same⟩ := exists_takeWhile (text.map change)
  rw [List.length_map] at length
  exact ⟨fill, length, fun rest => by rw [convert_text change visible, same]⟩

theorem takeWhile_visible (visible : 0 ∉ text) : text.takeWhile (· != 0) = text := by
  rw [List.takeWhile_eq_self_iff]
  rintro byte member
  rw [bne_iff_ne]
  rintro rfl
  exact visible member

theorem map_visible {change : UInt8 → UInt8} (nonzero : ∀ char, char ≠ 0 → change char ≠ 0)
    (visible : 0 ∉ text) : 0 ∉ text.map change := by
  intro member
  obtain ⟨char, listed, zero⟩ := List.mem_map.mp member
  refine nonzero char ?_ zero
  rintro rfl
  exact visible listed

theorem tolower_ne_zero {char : UInt8} (nonzero : char ≠ 0) : tolower char ≠ 0 := by
  unfold tolower
  split
  · rename_i upper
    obtain ⟨above, below⟩ := upper
    rw [UInt8.le_iff_toNat_le] at above below
    change 65 ≤ char.toNat at above
    change char.toNat ≤ 90 at below
    rw [Ne, ← UInt8.toNat_inj, UInt8.toNat_add]
    change (char.toNat + 32) % 256 ≠ 0
    omega
  · exact nonzero

def lineEnd (char : UInt8) : Bool := char == 13 || char == 10

theorem chomp_editsTo (visible : 0 ∉ text) :
    EditsTo chomp text (text.takeWhile fun char => !lineEnd char) := by
  induction text with
  | nil => exact editsTo_same fun _ => rfl
  | cons char text ih =>
      rw [List.mem_cons, not_or] at visible
      have nonzero : char ≠ 0 := Ne.symm visible.1
      have ends : lineEnd char = true ↔ char = 13 ∨ char = 10 := by simp [lineEnd]
      cases found : lineEnd char with
      | true =>
          have cut : (char :: text).takeWhile (fun char => !lineEnd char) = [] := by simp [found]
          refine ⟨text ++ [0], by rw [cut]; simp, fun rest => ?_⟩
          rw [cut, List.cons_append, chomp, if_neg nonzero, if_pos (ends.mp found)]
          simp
      | false =>
          have inside : ¬(char = 13 ∨ char = 10) := fun newline =>
            Bool.false_ne_true (found.symm.trans (ends.mpr newline))
          obtain ⟨fill, length, edits⟩ := ih visible.2
          have kept : (char :: text).takeWhile (fun char => !lineEnd char) =
              char :: text.takeWhile fun char => !lineEnd char := by simp [found]
          refine ⟨fill, ?_, fun rest => ?_⟩
          · rw [kept, List.length_cons, List.length_cons]
            omega
          · rw [kept, List.cons_append, chomp, if_neg nonzero, if_neg inside, edits]
            rfl

end Bytes

/-! White space at the ends. -/

section Trimming

variable {p : UInt8 → Bool} {text : Bytes}

theorem head_dropWhile (p : UInt8 → Bool) (text : Bytes) :
    ∀ byte ∈ (text.dropWhile p).head?, p byte = false := by
  intro byte head
  have stopped := List.head?_dropWhile_not p text
  rw [Option.mem_def] at head
  rw [head] at stopped
  simpa using stopped

theorem exists_lead (p : UInt8 → Bool) (text : Bytes) :
    ∃ lead, text = lead ++ text.dropWhile p ∧ ∀ byte ∈ lead, p byte = true :=
  ⟨text.takeWhile p, List.takeWhile_append_dropWhile.symm,
    fun _ member => List.mem_takeWhile_imp member⟩

theorem scan_run {lead body : Bytes} (leading : ∀ byte ∈ lead, p byte = true)
    (first : ∀ byte ∈ body.head?, p byte = false) (zero : p 0 = false) (back : Bytes) :
    scan p (lead ++ (body ++ 0 :: back)) = some lead.length := by
  cases body with
  | cons byte body => exact scan_append leading (first byte rfl) (body ++ 0 :: back)
  | nil => exact scan_append leading zero back

theorem ltrim_editsTo (visible : 0 ∉ text) : EditsTo ltrim text (text.dropWhile isspace) := by
  cases text with
  | nil => exact editsTo_same fun _ => rfl
  | cons first text =>
      cases blank : isspace first with
      | false =>
          rw [List.dropWhile_cons, blank]
          exact editsTo_same fun rest => ltrim_visible rfl blank
      | true =>
          obtain ⟨lead, whole, leading⟩ := exists_lead isspace (first :: text)
          have visibleBody := head_dropWhile isspace (first :: text)
          generalize (first :: text).dropWhile isspace = body at whole visibleBody ⊢
          refine ⟨(lead ++ (body ++ [0])).drop (body.length + 1), ?_, fun rest => ?_⟩
          · rw [whole]
            simp only [List.length_drop, List.length_append, List.length_singleton]
            omega
          · have length := Runs.scan_text visible rest
            have read : (first :: text ++ 0 :: rest)[0]? = some first := rfl
            rw [whole, List.append_assoc] at length read ⊢
            rw [ltrim_blank read blank length (scan_run leading visibleBody rfl rest)]
            exact dropFront_append lead body rest 0 0

theorem rtrim_editsTo (text : CText) :
    EditsTo rtrim text.bytes (text.bytes.rdropWhile isspace) := by
  obtain ⟨lead, trail, whole, runs⟩ := exists_runs_text text
  have kept : text.bytes.rdropWhile isspace = lead ++ strip isspace text.bytes := by
    conv_lhs => rw [whole]
    rw [← List.append_assoc, rdropWhile_append runs.trailing, rdropWhile_visible runs.last]
  refine ⟨List.replicate trail.length 0, ?_, fun rest => ?_⟩
  · have length := congrArg List.length whole
    rw [kept, List.length_replicate]
    simp only [List.length_append] at length ⊢
    omega
  · have block : text.bytes ++ 0 :: rest =
        lead ++ (strip isspace text.bytes ++ (trail ++ 0 :: rest)) := by
      conv_lhs => rw [whole]
      simp only [List.append_assoc]
    rw [kept, block, runs.rtrim, List.append_assoc]

theorem trim_editsTo (text : CText) : EditsTo trim text.bytes (strip isspace text.bytes) := by
  obtain ⟨fill, length, trimmed⟩ := exists_trimsTo text
  exact ⟨fill, length, trimmed.string⟩

end Trimming

/-! Quotes. -/

section Quotes

variable {text : Bytes}

theorem read_middle (front gap back : Bytes) (byte : UInt8) :
    (front ++ (gap ++ byte :: back))[front.length + gap.length]? = some byte := by
  rw [← List.append_assoc, List.getElem?_append_right (by rw [List.length_append]),
    List.length_append, Nat.sub_self]
  rfl

/-- The text moves down over the gap, which then stands behind it. -/
theorem copyDown_text (rounds : Nat) (visible : 0 ∉ text) (enough : text.length < rounds)
    (front gap rest : Bytes) :
    copyDown rounds (front.length + gap.length) front.length
        (front ++ (gap ++ (text ++ 0 :: rest))) =
      some ((front ++ text).length,
        front ++ (text ++ ((gap ++ text).drop text.length ++ 0 :: rest))) := by
  induction text generalizing rounds front gap with
  | nil =>
      obtain ⟨rounds, rfl⟩ := Nat.exists_eq_succ_of_ne_zero (by omega : rounds ≠ 0)
      rw [copyDown, List.nil_append, read_middle]
      simp
  | cons char text ih =>
      obtain ⟨rounds, rfl⟩ := Nat.exists_eq_succ_of_ne_zero (by omega : rounds ≠ 0)
      rw [List.mem_cons, not_or] at visible
      have later := ih rounds visible.2
        (by rw [List.length_cons] at enough; omega) (front ++ [char]) (gap ++ [char]).tail
      have places : (front ++ [char]).length + (gap ++ [char]).tail.length =
          front.length + gap.length + 1 := by
        simp only [List.length_append, List.length_tail, List.length_singleton]
        omega
      have gaps : ((gap ++ [char]).tail ++ text).drop text.length =
          (gap ++ char :: text).drop (text.length + 1) := by
        cases gap <;> simp
      rw [places, gaps] at later
      rw [copyDown, List.cons_append, read_middle]
      dsimp only
      rw [if_neg (Ne.symm visible.1), Block.write_behind, Option.bind_some]
      simpa using later

theorem isquote_zero : isquote 0 = false := by decide

/-- The first byte is not looked at; here it is no quote, or there is none. -/
theorem unquoteRight_text {inner trail : Bytes}
    (first : ∀ byte ∈ (inner ++ trail).head?, isquote byte = false)
    (last : ∀ byte ∈ inner.getLast?, isquote byte = false)
    (trailing : ∀ byte ∈ trail, isquote byte = true) (old : UInt8) (back : Bytes) :
    unquoteRight (inner ++ trail).length (inner ++ (trail ++ old :: back)) =
      some (inner ++ 0 :: (List.replicate trail.length 0 ++ back)) := by
  induction trail using List.reverseRecOn generalizing old back with
  | nil =>
      rw [List.append_nil, List.nil_append]
      cases inner using List.reverseRecOn with
      | nil => rfl
      | append_singleton front stop =>
          have stops := last stop (by simp)
          have written := Block.write_middle (front ++ [stop]) back old 0
          rw [List.length_append, List.length_singleton] at written ⊢
          rw [unquoteRight, written]
          dsimp only
          split
          · simp [stops]
          · simp
  | append_singleton trail quote ih =>
      have quoted := trailing quote (by simp)
      have index : (inner ++ (trail ++ [quote])).length = (inner ++ trail).length + 1 := by
        simp only [List.length_append, List.length_singleton]
        omega
      have block : inner ++ (trail ++ [quote] ++ old :: back) =
          inner ++ trail ++ [quote] ++ old :: back := by simp
      have written := Block.write_middle (inner ++ trail ++ [quote]) back old 0
      rw [List.length_append, List.length_singleton] at written
      -- otherwise this quote would be the first byte
      have nonempty : inner ++ trail ≠ [] := by
        intro empty
        rw [← List.append_assoc, empty] at first
        have visible := first quote rfl
        rw [quoted] at visible
        cases visible
      have positive := List.length_pos_iff.mpr nonempty
      have later := ih
        (fun byte head => first byte (by rwa [← List.append_assoc, List.head?_append_of_ne_nil _ nonempty]))
        (fun byte member => trailing byte (List.mem_append_left _ member)) quote (0 :: back)
      rw [index, block, unquoteRight, written]
      have read := read_middle [] (inner ++ trail) (0 :: back) quote
      rw [List.nil_append, List.length_nil, Nat.zero_add] at read
      have same : inner ++ trail ++ [quote] ++ 0 :: back = inner ++ trail ++ quote :: 0 :: back := by
        simp
      dsimp only
      rw [if_pos positive, same, read]
      dsimp only
      rw [if_pos quoted, List.append_assoc, later, List.length_append, List.length_singleton,
        List.replicate_succ', List.append_assoc]
      rfl

theorem unquoteLeft_text {lead body : Bytes} (leading : ∀ byte ∈ lead, isquote byte = true)
    (first : ∀ byte ∈ body.head?, isquote byte = false) (visible : 0 ∉ lead ++ body) (rest : Bytes) :
    (scan isquote (lead ++ (body ++ 0 :: rest))).bind (fun t =>
        if t ≠ 0 then copyDown (lead ++ (body ++ 0 :: rest)).length t 0 (lead ++ (body ++ 0 :: rest))
        else (scan (· != 0) (lead ++ (body ++ 0 :: rest))).map (·, lead ++ (body ++ 0 :: rest))) =
      some (body.length, body ++ ((lead ++ body).drop body.length ++ 0 :: rest)) := by
  rw [scan_run leading first isquote_zero, Option.bind_some]
  by_cases empty : lead = []
  · subst empty
    have length := Runs.scan_text visible rest
    rw [List.nil_append] at length ⊢
    rw [if_neg (by simp), length]
    simp
  · have some : lead.length ≠ 0 := fun none => empty (List.eq_nil_of_length_eq_zero none)
    have moved := copyDown_text (lead ++ (body ++ 0 :: rest)).length
      (fun member => visible (List.mem_append_right lead member))
      (by simp only [List.length_append, List.length_cons]; omega) [] lead rest
    rw [if_pos some]
    simpa using moved

theorem unquoteRight_gap {inner trail : Bytes}
    (first : ∀ byte ∈ (inner ++ trail).head?, isquote byte = false)
    (last : ∀ byte ∈ inner.getLast?, isquote byte = false)
    (trailing : ∀ byte ∈ trail, isquote byte = true) (gap rest : Bytes) :
    unquoteRight (inner ++ trail).length (inner ++ trail ++ (gap ++ 0 :: rest)) =
      some (inner ++ 0 :: (List.replicate trail.length 0 ++ (gap ++ [0]).tail ++ rest)) := by
  have cleared := unquoteRight_text first last trailing
  cases gap with
  | nil => simpa using cleared 0 rest
  | cons old gap => simpa using cleared old (gap ++ 0 :: rest)

theorem unquote_nonempty {s : Bytes} {first : UInt8} (read : s[0]? = some first)
    (nonzero : first ≠ 0) :
    unquote s = ((scan isquote s).bind fun t =>
      if t ≠ 0 then copyDown s.length t 0 s else (scan (· != 0) s).map (·, s)).bind
        fun left => unquoteRight left.1 left.2 := by
  simp only [unquote, read, Option.bind_eq_bind, Option.bind_some, nonzero, ne_eq,
    not_false_eq_true, if_true, Option.bind_assoc]
  refine Option.bind_congr fun t _ => ?_
  split <;> rfl

theorem unquote_editsTo (text : CText) : EditsTo unquote text.bytes (strip isquote text.bytes) := by
  obtain ⟨bytes, visible⟩ := text
  dsimp only
  obtain ⟨lead, front, leading⟩ := exists_lead isquote bytes
  have first := head_dropWhile isquote bytes
  generalize bytes.dropWhile isquote = body at front first
  have parts : body = body.rdropWhile isquote ++ body.rtakeWhile isquote :=
    (List.rdropWhile_append_rtakeWhile).symm
  have trailing : ∀ byte ∈ body.rtakeWhile isquote, isquote byte = true :=
    fun _ member => List.mem_rtakeWhile_imp member
  have last : ∀ byte ∈ (body.rdropWhile isquote).getLast?, isquote byte = false := by
    intro byte member
    obtain ⟨nonempty, rfl⟩ := List.mem_getLast?_eq_getLast member
    exact Bool.not_eq_true _ ▸ List.rdropWhile_last_not isquote body nonempty
  generalize body.rdropWhile isquote = inner at parts last
  generalize body.rtakeWhile isquote = trail at parts trailing
  subst parts
  have firstInner : ∀ byte ∈ inner.head?, isquote byte = false := by
    intro byte head
    exact first byte (List.mem_head?_append_of_mem_head? head)
  have stripped : Stripped isquote bytes inner :=
    ⟨⟨lead, trail, front, leading, trailing⟩, firstInner, last⟩
  rw [← stripped.eq_strip]
  have length := congrArg List.length front
  cases bytes with
  | nil =>
      have none : inner = [] := by simp at front; exact front.2.1
      subst none
      exact editsTo_same fun _ => rfl
  | cons byte bytes =>
      have nonzero : byte ≠ 0 := by
        rintro rfl
        exact visible List.mem_cons_self
      refine ⟨List.replicate trail.length 0 ++
        ((byte :: bytes).drop (inner ++ trail).length ++ [0]).tail, ?_, fun rest => ?_⟩
      · simp only [List.length_append, List.length_replicate, List.length_tail, List.length_drop,
          List.length_singleton] at length ⊢
        omega
      · have left := unquoteLeft_text leading first (front ▸ visible) rest
        rw [← List.append_assoc, ← front] at left
        rw [unquote_nonempty rfl nonzero, left, Option.bind_some]
        exact unquoteRight_gap first last trailing _ rest

end Quotes

end Str

end SimpleProcessMonitor
