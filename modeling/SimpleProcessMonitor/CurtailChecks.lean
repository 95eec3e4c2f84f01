import SimpleProcessMonitor.AffixChecks
import SimpleProcessMonitor.Library.Occurrence
import SimpleProcessMonitor.StrEditChecks

/-! Strings that are cut short, at a length or at the first occurrence of another string. -/

namespace SimpleProcessMonitor

open CString Strip

namespace Str

instance (b a : Bytes) : Decidable (CasePrefix b a) :=
  inferInstanceAs (Decidable (b.map toupper <+: a.map toupper))

def truncated (n : Nat) (text : Bytes) : Bytes :=
  if text.length ≤ n then text
  else if 3 ≤ n then text.take (n - 3) ++ [46, 46, 46]
  else text.take n

/-- The position of the first occurrence in any case. -/
def caseFind (t : Bytes) : Bytes → Option Nat
  | [] => none
  | char :: text =>
      if CasePrefix t (char :: text) then some 0 else (caseFind t text).map (· + 1)

def curtailed (t text : Bytes) : Bytes :=
  if t = [] then text else (caseFind t text).elim text text.take

section Cuts

variable {text t : Bytes}

theorem ellipsis_text (front back : Bytes) (first second third : UInt8) :
    ellipsis (front.length + 3) (front ++ first :: second :: third :: back) =
      some (front ++ 46 :: 46 :: 46 :: back) := by
  have one := Block.write_middle front (second :: third :: back) first 46
  have two := Block.write_middle (front ++ [46]) (third :: back) second 46
  have three := Block.write_middle (front ++ [46, 46]) back third 46
  simp only [List.append_assoc, List.length_append, List.length_cons, List.length_nil,
    List.cons_append, List.nil_append] at one two three
  have places : front.length + 3 - 3 = front.length ∧ front.length + 3 - 2 = front.length + 1 ∧
      front.length + 3 - 1 = front.length + 2 := by omega
  simp only [ellipsis, places, one, two, three, Option.bind_eq_bind, Option.bind_some]

theorem trunc_longer {s : Bytes} {n sl : Nat} (counted : scan (· != 0) s = some sl) (cut : n < sl) :
    trunc n s = (if 3 ≤ n then ellipsis n s else some s).bind (Block.write · n 0) := by
  have nonnegative : ¬(n : Int) < 0 := by omega
  have three : 0 ≤ (n : Int) - 3 ↔ 3 ≤ n := by omega
  simp only [trunc, if_neg nonnegative, counted, Option.bind_eq_bind, Option.bind_some,
    Int.toNat_natCast, cut, if_true, three]
  split <;> rfl

theorem trunc_editsTo (n : Nat) (visible : 0 ∉ text) : EditsTo (trunc n) text (truncated n text) := by
  have counted := Runs.scan_text visible
  by_cases fits : text.length ≤ n
  · rw [truncated, if_pos fits]
    refine editsTo_same fun rest => ?_
    simp [trunc, counted, fits]
  · have shape : text = text.take n ++ text[n] :: text.drop (n + 1) := by
      rw [← List.drop_eq_getElem_cons (by omega), List.take_append_drop]
    have width : (text.take n).length = n := by
      rw [List.length_take]
      omega
    generalize text.take n = front at shape width
    generalize text[n] = old at shape
    generalize text.drop (n + 1) = tail at shape
    subst shape width
    rw [truncated, if_neg fits]
    by_cases three : 3 ≤ front.length
    · have parts : front = front.take (front.length - 3) ++ front.drop (front.length - 3) :=
        (List.take_append_drop _ _).symm
      obtain ⟨first, second, third, dots⟩ := List.length_eq_three.mp
        (show (front.drop (front.length - 3)).length = 3 by rw [List.length_drop]; omega)
      rw [dots] at parts
      generalize front.take (front.length - 3) = head at parts
      subst parts
      have width : (head ++ [first, second, third]).length = head.length + 3 := by simp
      have dotted (rest : Bytes) : ellipsis (head.length + 3)
          (head ++ [first, second, third] ++ old :: tail ++ 0 :: rest) =
            some (head ++ [46, 46, 46] ++ old :: (tail ++ 0 :: rest)) := by
        have written := ellipsis_text head (old :: (tail ++ 0 :: rest)) first second third
        simpa using written
      have ended (rest : Bytes) :=
        Block.write_middle (head ++ [46, 46, 46]) (tail ++ 0 :: rest) old 0
      have kept : (head ++ [first, second, third] ++ old :: tail).take (head.length + 3 - 3) = head := by
        rw [Nat.add_sub_cancel, List.append_assoc, List.take_left]
      rw [if_pos three, width, kept]
      refine ⟨tail ++ [0], ?_, fun rest => ?_⟩
      · simp only [List.length_append, List.length_cons, List.length_nil]
      · have places : (head ++ [46, 46, 46]).length = head.length + 3 := by simp
        rw [trunc_longer (counted rest) (by simp), if_pos (by omega), dotted, Option.bind_some,
          ← places, ended]
        simp
    · rw [if_neg three, List.take_left]
      refine ⟨tail ++ [0], by simp, fun rest => ?_⟩
      rw [trunc_longer (counted rest) (by simp), if_neg three, Option.bind_some, List.append_assoc,
        List.cons_append, Block.write_middle]
      simp

theorem casePrefix_cons (second first : UInt8) (t text : Bytes) :
    CasePrefix (second :: t) (first :: text) ↔ toupper second = toupper first ∧ CasePrefix t text :=
  List.cons_prefix_cons

theorem matchesAt_text (visible : 0 ∉ t) (text rest : Bytes) :
    matchesAt (text ++ 0 :: rest) t = some (decide (CasePrefix t text)) := by
  induction t generalizing text with
  | nil => simp [matchesAt, CasePrefix]
  | cons second t ih =>
      rw [List.mem_cons, not_or] at visible
      cases text with
      | nil =>
          have different : toupper 0 ≠ toupper second :=
            Ne.symm (toupper_ne_zero (Ne.symm visible.1))
          rw [List.nil_append, matchesAt, if_neg different]
          simp [CasePrefix]
      | cons first text =>
          rw [List.cons_append, matchesAt, ih visible.2]
          by_cases same : toupper first = toupper second
          · simp [casePrefix_cons, same]
          · simp [casePrefix_cons, same, Ne.symm same]

theorem subLoop_text (visible : 0 ∉ t) (nonempty : t ≠ []) (visibleText : 0 ∉ text) (rest : Bytes) :
    subLoop t (text ++ 0 :: rest) = some (caseFind t text) := by
  induction text with
  | nil => rfl
  | cons char text ih =>
      rw [List.mem_cons, not_or] at visibleText
      have compared : (if toupper char = toupper (t.headD 0) then
          matchesAt (char :: (text ++ 0 :: rest)) t else some false) =
            some (decide (CasePrefix t (char :: text))) := by
        obtain ⟨second, t, rfl⟩ := List.exists_cons_of_ne_nil nonempty
        by_cases same : toupper char = toupper second
        · rw [List.headD_cons, if_pos same]
          exact matchesAt_text visible (char :: text) rest
        · rw [List.headD_cons, if_neg same]
          simp [casePrefix_cons, Ne.symm same]
      rw [List.cons_append, subLoop, if_neg (Ne.symm visibleText.1), compared, ih visibleText.2,
        caseFind]
      by_cases found : CasePrefix t (char :: text)
      · simp [found]
      · simp [found]

theorem caseFind_none (nonempty : t ≠ []) :
    caseFind t text = none ↔ ¬Occurrence.Occurs (t.map toupper) (text.map toupper) := by
  have pattern : t.map toupper ≠ [] := by simpa using nonempty
  induction text with
  | nil =>
      refine iff_of_true rfl ?_
      rintro ⟨index, occurs⟩
      exact Occurrence.not_occursAt_nil pattern index occurs
  | cons char text ih =>
      rw [caseFind, List.map_cons, Occurrence.occurs_cons, not_or]
      by_cases found : CasePrefix t (char :: text)
      · exact iff_of_false (by simp [found]) fun absent => absent.1 found
      · rw [if_neg found, Option.map_eq_none_iff]
        exact ih.trans (and_iff_right found).symm

theorem caseFind_some {position : Nat} (found : caseFind t text = some position) :
    Occurrence.OccursAt (t.map toupper) (text.map toupper) position ∧
      ∀ earlier < position, ¬Occurrence.OccursAt (t.map toupper) (text.map toupper) earlier := by
  induction text generalizing position with
  | nil => cases found
  | cons char text ih =>
      rw [caseFind] at found
      by_cases here : CasePrefix t (char :: text)
      · rw [if_pos here] at found
        cases found
        exact ⟨(Occurrence.occursAt_zero _).mpr here, fun earlier below => absurd below (by omega)⟩
      · rw [if_neg here] at found
        obtain ⟨index, later, rfl⟩ := Option.map_eq_some_iff.mp found
        obtain ⟨occurs, first⟩ := ih later
        rw [List.map_cons]
        refine ⟨(Occurrence.occursAt_succ _ _ index).mpr occurs, fun earlier below => ?_⟩
        cases earlier with
        | zero => exact fun head => here ((Occurrence.occursAt_zero _).mp head)
        | succ earlier =>
            rw [Occurrence.occursAt_succ]
            exact first earlier (by omega)

theorem curtail_editsTo (t text : CText) :
    EditsTo (curtail t.bytes) text.bytes (curtailed t.bytes text.bytes) := by
  by_cases empty : t.bytes = []
  · rw [curtailed, if_pos empty]
    exact editsTo_same fun rest => by rw [curtail, sub, if_pos empty]
  · have searched (rest : Bytes) :
        sub (text.bytes ++ 0 :: rest) t.bytes = some (caseFind t.bytes text.bytes) := by
      rw [sub, if_neg empty, subLoop_text t.visible empty text.visible]
    rw [curtailed, if_neg empty]
    cases found : caseFind t.bytes text.bytes with
    | none => exact editsTo_same fun rest => by rw [curtail, searched, found]
    | some position =>
        have room := (caseFind_some found).1.room (by simpa using empty)
        have positive := List.length_pos_iff.mpr empty
        rw [List.length_map, List.length_map] at room
        have shape : text.bytes = text.bytes.take position ++
            text.bytes[position] :: text.bytes.drop (position + 1) := by
          rw [← List.drop_eq_getElem_cons (by omega), List.take_append_drop]
        have width : (text.bytes.take position).length = position := by
          rw [List.length_take]
          omega
        refine ⟨text.bytes.drop (position + 1) ++ [0], ?_, fun rest => ?_⟩
        · simp only [Option.elim_some, width, List.length_append, List.length_drop,
            List.length_singleton]
          omega
        · have written := Block.write_middle (text.bytes.take position)
            (text.bytes.drop (position + 1) ++ 0 :: rest) text.bytes[position] 0
          rw [width, ← List.cons_append, ← List.append_assoc, ← shape] at written
          rw [curtail, searched, found]
          dsimp only
          rw [written]
          simp

theorem caseFind_take {position : Nat} (nonempty : t ≠ [])
    (found : caseFind t text = some position) : caseFind t (text.take position) = none := by
  have pattern : t.map toupper ≠ [] := by simpa using nonempty
  have positive := List.length_pos_iff.mpr nonempty
  rw [caseFind_none nonempty]
  rintro ⟨index, occurs⟩
  have room := occurs.room pattern
  rw [List.length_map, List.length_map, List.length_take] at room
  rw [List.map_take] at occurs
  exact (caseFind_some found).2 index (by omega) (occurs.of_prefix (List.take_prefix position _))

theorem curtailed_same (absent : caseFind t text = none) : curtailed t text = text := by
  rw [curtailed, absent]
  split <;> rfl

theorem curtailed_front (t text : Bytes) : curtailed t text <+: text := by
  rw [curtailed]
  split
  · exact List.prefix_rfl
  · cases caseFind t text with
    | none => exact List.prefix_rfl
    | some position => exact List.take_prefix position text

theorem curtailed_none (nonempty : t ≠ []) (text : Bytes) :
    caseFind t (curtailed t text) = none := by
  cases found : caseFind t text with
  | none => rwa [curtailed_same found]
  | some position =>
      rw [curtailed, if_neg nonempty, found]
      exact caseFind_take nonempty found

theorem curtailed_cut {cut : Bytes} (whole : text = curtailed t text ++ cut) (behind : cut ≠ []) :
    CasePrefix t cut := by
  by_cases empty : t = []
  · subst empty
    exact List.nil_prefix
  · cases found : caseFind t text with
    | none =>
        rw [curtailed_same found] at whole
        exact absurd (List.self_eq_append_right.mp whole) behind
    | some position =>
        rw [curtailed, if_neg empty, found] at whole
        have rest : text.drop position = cut :=
          List.append_cancel_left ((List.take_append_drop position text).trans whole)
        have occurs := (caseFind_some found).1
        rwa [Occurrence.OccursAt, ← List.map_drop, rest] at occurs

/-- What is left has no occurrence, in any case, and what was cut off begins with one. -/
theorem curtail_cuts (t text : CText) (nonempty : t.bytes ≠ []) :
    ∃ result cut, text.bytes = result ++ cut ∧ EditsTo (curtail t.bytes) text.bytes result ∧
      EditsTo (curtail t.bytes) result result ∧
        ¬Occurrence.Occurs (t.bytes.map toupper) (result.map toupper) ∧
          (cut ≠ [] → CasePrefix t.bytes cut) := by
  obtain ⟨cut, whole⟩ := curtailed_front t.bytes text.bytes
  have absent := curtailed_none nonempty text.bytes
  have visible : 0 ∉ curtailed t.bytes text.bytes := fun member =>
    text.visible (whole ▸ List.mem_append_left cut member)
  have again := curtail_editsTo t ⟨_, visible⟩
  dsimp only at again
  rw [curtailed_same absent] at again
  exact ⟨_, cut, whole.symm, curtail_editsTo t text, again, (caseFind_none nonempty).mp absent,
    curtailed_cut whole.symm⟩

theorem curtail_cuts_sample :
    ∃ result cut, bytes "key = Value" = result ++ cut ∧
      EditsTo (curtail (bytes " = v")) (bytes "key = Value") result ∧
        (cut ≠ [] → CasePrefix (bytes " = v") cut) := by
  obtain ⟨result, cut, whole, edits, -, -, begins⟩ := curtail_cuts ⟨bytes " = v", by decide⟩
    ⟨bytes "key = Value", by decide⟩ (by decide)
  exact ⟨result, cut, whole, edits, begins⟩

end Cuts

end Str

end SimpleProcessMonitor
