import Mathlib.Data.List.DropRight
import Mathlib.Data.List.Infix
import Mathlib.Data.List.TakeWhile
import SimpleProcessMonitor.Library.Block

/-!
A text without the runs of some values at both of its ends, and the loops that strip it in
a block of memory whose accesses are checked.
-/

namespace Strip

variable {α : Type} (p : α → Bool)

def strip (text : List α) : List α := (text.rdropWhile p).dropWhile p

/-- `inner` is what is left between the longest runs of values in `p` at the two ends. -/
structure Stripped (text inner : List α) : Prop where
  runs : ∃ lead trail, text = lead ++ (inner ++ trail) ∧ (∀ value ∈ lead, p value = true) ∧
    ∀ value ∈ trail, p value = true
  first : ∀ value ∈ inner.head?, p value = false
  last : ∀ value ∈ inner.getLast?, p value = false

section Normal

variable {p} {text inner : List α}

theorem rdropWhile_append {trail : List α} (all : ∀ value ∈ trail, p value = true)
    (front : List α) : (front ++ trail).rdropWhile p = front.rdropWhile p := by
  induction trail using List.reverseRecOn with
  | nil => rw [List.append_nil]
  | append_singleton trail last ih =>
      have lastBlank := all last (by simp)
      rw [← List.append_assoc, List.rdropWhile_concat_pos p _ last lastBlank]
      exact ih fun value member => all value (List.mem_append_left _ member)

theorem rdropWhile_visible (last : ∀ value ∈ text.getLast?, p value = false) :
    text.rdropWhile p = text := by
  rw [List.rdropWhile_eq_self_iff]
  intro nonempty
  rw [Bool.not_eq_true]
  exact last _ (List.getLast?_eq_some_getLast nonempty)

theorem dropWhile_visible (first : ∀ value ∈ text.head?, p value = false) :
    text.dropWhile p = text := by
  cases text with
  | nil => rfl
  | cons value text =>
      have visible := first value rfl
      rw [List.dropWhile_cons, visible]
      rfl

theorem Stripped.eq_strip (stripped : Stripped p text inner) : inner = strip p text := by
  obtain ⟨lead, trail, rfl, leading, trailing⟩ := stripped.runs
  have right : (lead ++ (inner ++ trail)).rdropWhile p = (lead ++ inner).rdropWhile p := by
    rw [← List.append_assoc]
    exact rdropWhile_append trailing _
  rw [strip, right]
  by_cases empty : inner = []
  · rw [empty, List.append_nil, List.rdropWhile_eq_nil_iff.mpr leading]
    rfl
  · have last : ∀ value ∈ (lead ++ inner).getLast?, p value = false := by
      rw [List.getLast?_append_of_ne_nil lead empty]
      exact stripped.last
    rw [rdropWhile_visible last, List.dropWhile_append_of_pos leading]
    exact (dropWhile_visible stripped.first).symm

theorem Stripped.unique {other : List α} (one : Stripped p text inner)
    (second : Stripped p text other) : inner = other :=
  one.eq_strip.trans second.eq_strip.symm

/-- The text is cut at the right end first, so nothing is left for the left end of a text
that has only values in `p`. -/
theorem exists_runs (p : α → Bool) (text : List α) :
    ∃ lead trail, text = lead ++ (strip p text ++ trail) ∧ (∀ value ∈ lead, p value = true) ∧
      (∀ value ∈ trail, p value = true) ∧
        ∀ value ∈ (lead ++ strip p text).getLast?, p value = false := by
  have front : (text.rdropWhile p).takeWhile p ++ strip p text = text.rdropWhile p :=
    List.takeWhile_append_dropWhile
  refine ⟨(text.rdropWhile p).takeWhile p, text.rtakeWhile p, ?_, ?_, ?_, ?_⟩
  · rw [← List.append_assoc, front, List.rdropWhile_append_rtakeWhile]
  · exact fun value member => List.mem_takeWhile_imp member
  · exact fun value member => List.mem_rtakeWhile_imp member
  · rw [front]
    intro value member
    obtain ⟨nonempty, rfl⟩ := List.mem_getLast?_eq_getLast member
    exact Bool.not_eq_true _ ▸ List.rdropWhile_last_not p text nonempty

theorem strip_stripped (p : α → Bool) (text : List α) : Stripped p text (strip p text) := by
  obtain ⟨lead, trail, whole, leading, trailing, last⟩ := exists_runs p text
  refine ⟨⟨lead, trail, whole, leading, trailing⟩, ?_, ?_⟩
  · intro value head
    have stopped := List.head?_dropWhile_not p (text.rdropWhile p)
    rw [strip, Option.mem_def] at head
    rw [head] at stopped
    simpa using stopped
  · intro value member
    exact last value (List.mem_getLast?_append_of_mem_getLast? member)

theorem Stripped.empty (stripped : Stripped p text inner) (all : ∀ value ∈ text, p value = true) :
    inner = [] := by
  obtain ⟨lead, trail, rfl, _, _⟩ := stripped.runs
  cases inner with
  | nil => rfl
  | cons first inner =>
      have blank := all first (by simp)
      rw [stripped.first first rfl] at blank
      cases blank

theorem stripped_self (first : ∀ value ∈ text.head?, p value = false)
    (last : ∀ value ∈ text.getLast?, p value = false) : Stripped p text text :=
  ⟨⟨[], [], by simp, by simp, by simp⟩, first, last⟩

theorem strip_idem (p : α → Bool) (text : List α) : strip p (strip p text) = strip p text := by
  have stripped := strip_stripped p text
  exact (stripped_self stripped.first stripped.last).eq_strip.symm

end Normal

/-! The loops. -/

/-- Counts the values in front of the first one outside `p`, which is read too. -/
def scan : List α → Option Nat
  | [] => none
  | first :: rest => if p first then (scan rest).map (· + 1) else some 0

/-- Overwrites the values in `p` in front of `index`, from the last one on. -/
def clearBack (value : α) : Nat → List α → Option (Nat × List α)
  | 0, block => some (0, block)
  | index + 1, block =>
      match block[index]? with
      | none => none
      | some last =>
          if p last then (Block.write block index value).bind (clearBack value index)
          else some (index + 1, block)

/-- The first `count` values of a text are dropped and the rest is ended again; a negative
length of the move is out of bounds. -/
def dropFront (block : List α) (length count : Nat) (value : α) : Option (List α) :=
  if length < count then none
  else (Block.move block 0 count (length - count)).bind (Block.write · (length - count) value)

variable {p}

theorem scan_append {front : List α} (all : ∀ value ∈ front, p value = true) {stop : α}
    (stops : p stop = false) (back : List α) : scan p (front ++ stop :: back) = some front.length := by
  induction front with
  | nil => simp [scan, stops]
  | cons first front ih =>
      rw [List.forall_mem_cons] at all
      rw [List.cons_append, scan, if_pos all.1, ih all.2]
      rfl

theorem scan_eq {block : List α} {count : Nat} (counted : scan p block = some count) :
    count = (block.takeWhile p).length := by
  induction block generalizing count with
  | nil => cases counted
  | cons first rest ih =>
      rw [scan] at counted
      split at counted
      · rename_i found
        obtain ⟨more, later, rfl⟩ := Option.map_eq_some_iff.mp counted
        rw [List.takeWhile_cons_of_pos found, List.length_cons, ih later]
      · rename_i other
        cases counted
        rw [List.takeWhile_cons_of_neg other]
        rfl

theorem dropFront_eq {block result : List α} {length count : Nat} {value : α}
    (dropped : dropFront block length count value = some result) :
    result = ((block.drop count).take (length - count) ++ block.drop (length - count)).set
      (length - count) value := by
  unfold dropFront at dropped
  split at dropped
  · cases dropped
  · obtain ⟨moved, move, write⟩ := Option.bind_eq_some_iff.mp dropped
    rw [Block.write_eq_set write, Block.move_front move]

theorem clearBack_append {front tail : List α}
    (last : ∀ value ∈ front.getLast?, p value = false) (all : ∀ value ∈ tail, p value = true)
    (value : α) (back : List α) :
    clearBack p value (front ++ tail).length (front ++ (tail ++ back)) =
      some (front.length, front ++ (List.replicate tail.length value ++ back)) := by
  induction tail using List.reverseRecOn generalizing back with
  | nil =>
      rw [List.append_nil]
      cases front using List.reverseRecOn with
      | nil => rfl
      | append_singleton front stop =>
          have stops := last stop (by simp)
          simp [clearBack, stops]
  | append_singleton tail old ih =>
      have index : (front ++ (tail ++ [old])).length = (front ++ tail).length + 1 := by
        simp only [List.length_append, List.length_singleton]
        omega
      have block : front ++ (tail ++ [old] ++ back) = front ++ tail ++ old :: back := by simp
      have read : (front ++ tail ++ old :: back)[(front ++ tail).length]? = some old := by
        rw [List.getElem?_append_right (Nat.le_refl _), Nat.sub_self]
        rfl
      have blank := all old (by simp)
      have later := ih (fun other member => all other (List.mem_append_left _ member)) (value :: back)
      rw [index, block, clearBack, read]
      simp only [blank, if_true, Block.write_middle, Option.bind_some]
      rw [List.append_assoc, later, List.length_append, List.length_singleton,
        List.replicate_succ', List.append_assoc]
      rfl

theorem dropFront_append (lead body back : List α) (old value : α) :
    dropFront (lead ++ (body ++ old :: back)) (lead ++ body).length lead.length value =
      some (body ++ value :: ((lead ++ (body ++ [old])).drop (body.length + 1) ++ back)) := by
  have length : (lead ++ body).length - lead.length = body.length := by
    rw [List.length_append]
    omega
  have values : ((lead ++ (body ++ old :: back)).drop lead.length).take body.length = body := by
    rw [List.drop_left, List.take_left]
  have rest : (lead ++ (body ++ old :: back)).drop body.length =
      ((lead ++ (body ++ [old])).drop body.length) ++ back := by
    rw [← List.drop_append_of_le_length (by simp only [List.length_append]; omega)]
    simp
  have longer : body.length < (lead ++ (body ++ [old])).length := by
    simp only [List.length_append, List.length_singleton]
    omega
  have moved : Block.move (lead ++ (body ++ old :: back)) 0 lead.length body.length =
      some (body ++ (lead ++ (body ++ old :: back)).drop body.length) := by
    rw [Block.move, if_pos (by simp only [List.length_append, List.length_cons]; omega), values,
      Block.store, if_pos (by simp only [List.length_append, List.length_cons]; omega)]
    simp
  rw [dropFront, if_neg (by simp only [List.length_append]; omega), length, moved, Option.bind_some,
    rest, List.drop_eq_getElem_cons longer]
  exact Block.write_middle body _ _ value

end Strip
