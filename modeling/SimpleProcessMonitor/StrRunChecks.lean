import SimpleProcessMonitor.CurtailChecks
import SimpleProcessMonitor.UnescapeChecks

/-!
Runs of the functions of `Str.c` that change a string in place, and the copies of several
strings into one buffer.
-/

namespace SimpleProcessMonitor

open CString Strip

namespace Str

inductive Edit
  | chomp
  | ltrim
  | rtrim
  | trim
  | unquote
  | toLower
  | toUpper
  | replaceChar (o n : UInt8)
  | unescape (charset : CText)
  | trunc (n : Int)
  | curtail (t : CText)

def Edit.apply : Edit → Bytes → Option Bytes
  | .chomp => Str.chomp
  | .ltrim => Str.ltrim
  | .rtrim => Str.rtrim
  | .trim => Str.trim
  | .unquote => Str.unquote
  | .toLower => Str.toLower
  | .toUpper => Str.toUpper
  | .replaceChar o n => Str.replaceChar o n
  | .unescape charset => Str.unescape charset.bytes
  | .trunc n => Str.trunc n
  | .curtail t => Str.curtail t.bytes

/-- The text that a function has to leave; `none` is a failed assertion. -/
def Edit.text : Edit → Bytes → Option Bytes
  | .chomp, text => some (text.takeWhile fun char => !lineEnd char)
  | .ltrim, text => some (text.dropWhile isspace)
  | .rtrim, text => some (text.rdropWhile isspace)
  | .trim, text => some (strip isspace text)
  | .unquote, text => some (strip isquote text)
  | .toLower, text => some (text.map tolower)
  | .toUpper, text => some (text.map toupper)
  | .replaceChar o n, text => some ((text.map (replaceWith o n)).takeWhile (· != 0))
  | .unescape charset, text => some (unescaped charset.bytes text)
  | .trunc n, text => if n < 0 then none else some (truncated n.toNat text)
  | .curtail t, text => some (curtailed t.bytes text)

def editAll : List Edit → Bytes → Option Bytes
  | [], s => some s
  | edit :: edits, s => (edit.apply s).bind (editAll edits)

def textAfter : List Edit → Bytes → Option Bytes
  | [], text => some text
  | edit :: edits, text => (edit.text text).bind (textAfter edits)

/-- The string ends as the text does, or the run fails with it. -/
def Follows (edit : Bytes → Option Bytes) (text : Bytes) (left : Option Bytes) : Prop :=
  left.elim (∀ rest, edit (text ++ 0 :: rest) = none)
    fun result => 0 ∉ result ∧ EditsTo edit text result

section Visible

variable {text result : Bytes}

theorem visible_of_sublist (part : result.Sublist text) (visible : 0 ∉ text) : 0 ∉ result :=
  fun member => visible (part.subset member)

theorem strip_sublist (p : UInt8 → Bool) (text : Bytes) : (strip p text).Sublist text :=
  (List.dropWhile_suffix p).sublist.trans (List.rdropWhile_prefix p text).sublist

theorem takeWhile_zero (text : Bytes) : 0 ∉ text.takeWhile (· != 0) := by
  intro member
  have nonzero := List.mem_takeWhile_imp member
  cases nonzero

theorem unescaped_sublist (charset text : Bytes) : (unescaped charset text).Sublist text := by
  fun_induction unescaped charset text with
  | case1 => exact List.Sublist.refl _
  | case2 char => exact List.Sublist.refl _
  | case3 char next rest dropped ih => exact (ih.cons_cons next).cons char
  | case4 char next rest kept ih => exact ih.cons_cons char

theorem truncated_visible (n : Nat) (visible : 0 ∉ text) : 0 ∉ truncated n text := by
  rw [truncated]
  split
  · exact visible
  · split
    · intro member
      rcases List.mem_append.mp member with front | dots
      · exact visible_of_sublist (List.take_sublist _ _) visible front
      · exact absurd dots (by decide)
    · exact visible_of_sublist (List.take_sublist _ _) visible

theorem convert_follows {change : UInt8 → UInt8} (nonzero : ∀ char, char ≠ 0 → change char ≠ 0)
    (visible : 0 ∉ text) : Follows (convert change) text (some (text.map change)) := by
  have kept := map_visible nonzero visible
  have edits := convert_editsTo change visible
  rw [takeWhile_visible kept] at edits
  exact ⟨kept, edits⟩

end Visible

theorem Edit.follows (edit : Edit) (text : CText) :
    Follows edit.apply text.bytes (edit.text text.bytes) := by
  obtain ⟨bytes, visible⟩ := text
  cases edit with
  | chomp =>
      exact ⟨visible_of_sublist (List.takeWhile_prefix _).sublist visible, chomp_editsTo visible⟩
  | ltrim =>
      exact ⟨visible_of_sublist (List.dropWhile_suffix _).sublist visible, ltrim_editsTo visible⟩
  | rtrim =>
      exact ⟨visible_of_sublist (List.rdropWhile_prefix _ _).sublist visible,
        rtrim_editsTo ⟨bytes, visible⟩⟩
  | trim =>
      exact ⟨visible_of_sublist (strip_sublist _ _) visible, trim_editsTo ⟨bytes, visible⟩⟩
  | unquote =>
      exact ⟨visible_of_sublist (strip_sublist _ _) visible, unquote_editsTo ⟨bytes, visible⟩⟩
  | toLower => exact convert_follows (fun _ => tolower_ne_zero) visible
  | toUpper => exact convert_follows (fun _ => toupper_ne_zero) visible
  | replaceChar o n => exact ⟨takeWhile_zero _, convert_editsTo _ visible⟩
  | unescape charset =>
      exact ⟨visible_of_sublist (unescaped_sublist _ _) visible,
        unescape_editsTo charset ⟨bytes, visible⟩⟩
  | trunc n =>
      by_cases negative : n < 0
      · have left : (Edit.trunc n).text bytes = none := if_pos negative
        rw [left]
        intro rest
        rw [Edit.apply, Str.trunc, if_pos negative]
      · obtain ⟨count, rfl⟩ := Int.eq_ofNat_of_zero_le (not_lt.mp negative)
        have left : (Edit.trunc count).text bytes = some (truncated count bytes) := by
          rw [Edit.text, if_neg negative, Int.toNat_natCast]
        rw [left]
        exact ⟨truncated_visible count visible, trunc_editsTo count visible⟩
  | curtail t =>
      exact ⟨visible_of_sublist (curtailed_front _ _).sublist visible,
        curtail_editsTo t ⟨bytes, visible⟩⟩

/-- Every run of these functions leaves the text that they leave one after the other, and
neither reads nor writes behind the NUL at which the string ended first. The indices of the code
are of type `int`, so this is about strings of less than 2^31 bytes. -/
theorem edits_text (edits : List Edit) (text : CText) :
    Follows (editAll edits) text.bytes (textAfter edits text.bytes) := by
  obtain ⟨bytes, visible⟩ := text
  induction edits generalizing bytes with
  | nil => exact ⟨visible, editsTo_same fun _ => rfl⟩
  | cons edit edits ih =>
      have first := edit.follows ⟨bytes, visible⟩
      dsimp only at first
      change Follows (fun s => (edit.apply s).bind (editAll edits)) bytes
        ((edit.text bytes).bind (textAfter edits))
      cases leaves : edit.text bytes with
      | none =>
          rw [leaves] at first
          intro rest
          dsimp only
          rw [first rest, Option.bind_none]
      | some middle =>
          rw [leaves] at first
          obtain ⟨visibleMiddle, edits⟩ := first
          have later := ih middle visibleMiddle
          rw [Option.bind_some]
          cases after : textAfter _ middle with
          | none =>
              rw [after] at later
              obtain ⟨fill, -, ran⟩ := edits
              intro rest
              dsimp only
              rw [ran, Option.bind_some, later]
          | some result =>
              rw [after] at later
              exact ⟨later.1, edits.comp later.2⟩

/-! Copies. -/

/-- The buffer holds the text and its NUL, if it has room for both. -/
def filled (dest text : Bytes) : Option Bytes :=
  if text.length < dest.length then some (text ++ 0 :: dest.drop (text.length + 1)) else none

section Copies

/-- The counter is not negative as long as the copy goes on. -/
theorem copyLoop_append (p src : Bytes) {n : Int} (nonnegative : 0 ≤ n) (t : Nat) (dest : Bytes) :
    (copyLoop (p ++ src) n t dest).map Prod.snd =
      (copyLoop p n t dest).bind fun copied =>
        if 0 < copied.1 then (copyLoop src copied.1 copied.2.1 copied.2.2).map Prod.snd
        else some copied.2 := by
  induction p generalizing n t dest with
  | nil =>
      rw [List.nil_append, copyLoop, Option.bind_some]
      by_cases more : 0 < n
      · rw [if_pos more]
      · have zero : n = 0 := by omega
        subst zero
        cases src with
        | nil => rfl
        | cons char src => rfl
  | cons char p ih =>
      rw [List.cons_append, copyLoop, copyLoop]
      by_cases zero : n = 0
      · subst zero
        rfl
      · rw [if_neg zero, if_neg zero, Option.map_bind, Option.bind_assoc]
        refine Option.bind_congr fun written _ => ?_
        exact ih (by omega) (t + 1) written

theorem copyLoop_zero (src : Bytes) (t : Nat) (dest : Bytes) :
    (copyLoop src 0 t dest).map Prod.snd = some (t, dest) := by
  cases src with
  | nil => rfl
  | cons char src => rfl

theorem joinLoop_done (parts : List Bytes) {n : Int} (done : ¬0 < n) (q : Nat) (dest : Bytes) :
    joinLoop parts n q dest = some (q, dest) := by
  cases parts with
  | nil => rfl
  | cons p parts => exact if_neg done

theorem joinLoop_flatten (parts : List Bytes) {n : Int} (nonnegative : 0 ≤ n) (q : Nat)
    (dest : Bytes) :
    joinLoop parts n q dest = (copyLoop parts.flatten n q dest).map Prod.snd := by
  induction parts generalizing n q dest with
  | nil => rfl
  | cons p parts ih =>
      by_cases more : 0 < n
      · rw [List.flatten_cons, copyLoop_append p _ nonnegative, joinLoop, if_pos more]
        refine Option.bind_congr fun copied _ => ?_
        by_cases left : 0 < copied.1
        · rw [if_pos left]
          exact ih left.le _ _
        · rw [if_neg left]
          exact joinLoop_done parts left _ _
      · have zero : n = 0 := by omega
        subst zero
        rw [joinLoop_done _ more, copyLoop_zero]

theorem write_end (front : Bytes) (value : UInt8) : Block.write front front.length value = none := by
  simp [Block.write, Block.store]

theorem filled_nil (dest : Bytes) (front : Bytes) :
    Block.write (front ++ dest) front.length 0 = (filled dest []).map (front ++ ·) := by
  cases dest with
  | nil =>
      rw [List.append_nil, write_end]
      rfl
  | cons old dest =>
      rw [Block.write_middle]
      rfl

theorem filled_cons (old char : UInt8) (dest text : Bytes) :
    filled (old :: dest) (char :: text) = (filled dest text).map (char :: ·) := by
  unfold filled
  by_cases room : text.length < dest.length
  · simp [room]
  · simp [room]

/-- `front` is written already. -/
theorem copyLoop_text (src : Bytes) (count : Nat) (front back : Bytes) :
    (copyLoop src count front.length (front ++ back)).bind
        (fun copied => Block.write copied.2.2 copied.2.1 0) =
      (filled back (src.take count)).map (front ++ ·) := by
  induction src generalizing count front back with
  | nil =>
      rw [List.take_nil]
      exact filled_nil back front
  | cons char src ih =>
      cases count with
      | zero => exact filled_nil back front
      | succ count =>
          have positive : ((count + 1 : Nat) : Int) ≠ 0 := by omega
          have fewer : ((count + 1 : Nat) : Int) - 1 = count := by omega
          rw [copyLoop, if_neg positive, fewer, List.take_succ_cons]
          cases back with
          | nil =>
              rw [List.append_nil, write_end]
              rfl
          | cons old back =>
              have later := ih count (front ++ [char]) back
              rw [List.append_assoc, List.length_append] at later
              rw [Block.write_middle, Option.bind_some, filled_cons, Option.map_map]
              refine later.trans (congrArg (Option.map · _) (funext fun text => ?_))
              simp

theorem copy_filled (dest src : Bytes) (n : Int) : copy dest src n = filled dest (src.take n.toNat) := by
  by_cases positive : 0 < n
  · obtain ⟨count, rfl⟩ := Int.eq_ofNat_of_zero_le positive.le
    have copied := copyLoop_text src count [] dest
    rw [copy, if_pos positive, Int.toNat_natCast]
    simpa using copied
  · have none : n.toNat = 0 := by omega
    have ended := filled_nil dest []
    rw [copy, if_neg positive, none, List.take_zero]
    simpa using ended

/-- Joined are the first `n` bytes of all strings, as if they were copied as one; the buffer has
to hold what is copied and the NUL, and nothing behind it changes. -/
theorem join_filled (dest : Bytes) (n : Int) (parts : List Bytes) :
    join dest n parts = filled dest (parts.flatten.take n.toNat) ∧
      join dest n parts = copy dest parts.flatten n := by
  have same : join dest n parts = copy dest parts.flatten n := by
    by_cases positive : 0 < n
    · rw [join, copy, if_pos positive, joinLoop_flatten parts positive.le, Option.bind_map]
      rfl
    · rw [join, joinLoop_done parts positive, copy, if_neg positive]
      rfl
  exact ⟨same.trans (copy_filled dest _ n), same⟩

end Copies

end Str

end SimpleProcessMonitor
