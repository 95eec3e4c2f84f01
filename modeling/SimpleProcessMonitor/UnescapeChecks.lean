import SimpleProcessMonitor.StrEditChecks

/-!
Unescaping in place, with one position that is read and one that is written, and that it
undoes the escaping of a text.
-/

namespace SimpleProcessMonitor

open CString

namespace Str

/-- A backslash in front of a character of the set is dropped. -/
def unescaped (charset : Bytes) : Bytes → Bytes
  | [] => []
  | [char] => [char]
  | char :: next :: rest =>
      if char = 92 ∧ next ∈ charset then next :: unescaped charset rest
      else char :: unescaped charset (next :: rest)

def escaped (charset text : Bytes) : Bytes :=
  text.flatMap fun char => if char ∈ charset then [92, char] else [char]

section Escapes

variable {charset : Bytes} {char next : UInt8} {rounds : Nat} {text : Bytes}

theorem unescaped_drop (member : next ∈ charset) (rest : Bytes) :
    unescaped charset (92 :: next :: rest) = next :: unescaped charset rest := by
  rw [unescaped, if_pos ⟨rfl, member⟩]

theorem unescaped_keep (plain : char = 92 → ∀ next ∈ text.head?, next ∉ charset) :
    unescaped charset (char :: text) = char :: unescaped charset text := by
  cases text with
  | nil => rfl
  | cons next text =>
      rw [unescaped, if_neg]
      rintro ⟨backslash, member⟩
      exact plain backslash next rfl member

theorem unescapeLoop_keep (nonzero : char ≠ 0) (plain : char = 92 → next ∉ charset)
    (front gap back : Bytes) :
    unescapeLoop charset (rounds + 1) front.length (front.length + gap.length)
        (front ++ (gap ++ char :: next :: back)) =
      unescapeLoop charset rounds (front ++ [char]).length
        ((front ++ [char]).length + (gap ++ [char]).tail.length)
        (front ++ [char] ++ ((gap ++ [char]).tail ++ next :: back)) := by
  have places : (front ++ [char]).length + (gap ++ [char]).tail.length =
      front.length + gap.length + 1 := by
    simp only [List.length_append, List.length_tail, List.length_singleton]
    omega
  have read := read_middle (front ++ [char]) (gap ++ [char]).tail back next
  have block : front ++ [char] ++ ((gap ++ [char]).tail ++ next :: back) =
      front ++ char :: ((gap ++ [char]).tail ++ next :: back) := by simp
  rw [places] at read ⊢
  rw [block] at read ⊢
  rw [unescapeLoop, read_middle]
  dsimp only
  rw [if_neg nonzero, Block.write_behind]
  dsimp only
  split
  · rename_i backslash
    rw [read]
    dsimp only
    rw [if_neg (plain backslash.1), List.length_append, List.length_singleton]
  · rw [List.length_append, List.length_singleton]

theorem unescapeLoop_drop (member : next ∈ charset) (front gap back : Bytes) :
    unescapeLoop charset (rounds + 1) front.length (front.length + gap.length)
        (front ++ (gap ++ 92 :: next :: back)) =
      unescapeLoop charset rounds (front ++ [next]).length
        ((front ++ [next]).length + ((gap ++ [92]).tail ++ [next]).length)
        (front ++ [next] ++ ((gap ++ [92]).tail ++ [next] ++ back)) := by
  have places : (front ++ [next]).length + ((gap ++ [92]).tail ++ [next]).length =
      front.length + gap.length + 2 := by
    simp only [List.length_append, List.length_tail, List.length_singleton]
    omega
  have nextPlace : (front ++ [92]).length + (gap ++ [92]).tail.length =
      front.length + gap.length + 1 := by
    simp only [List.length_append, List.length_tail, List.length_singleton]
    omega
  have read := read_middle (front ++ [92]) (gap ++ [92]).tail back next
  have block : front ++ [92] ++ ((gap ++ [92]).tail ++ next :: back) =
      front ++ 92 :: ((gap ++ [92]).tail ++ next :: back) := by simp
  rw [nextPlace, block] at read
  have nonempty : charset ≠ [] := List.ne_nil_of_mem member
  have written := Block.write_middle front ((gap ++ [92]).tail ++ next :: back) 92 next
  rw [places, unescapeLoop, read_middle]
  dsimp only
  rw [if_neg (by decide), Block.write_behind]
  dsimp only
  rw [if_pos ⟨rfl, nonempty⟩, read]
  dsimp only
  rw [if_pos member, written, Option.bind_some]
  simp

/-- `front` is written already, and `gap` is what stands between the two positions. -/
theorem unescapeLoop_text (plain : 0 ∉ charset) (visible : 0 ∉ text) (front gap : Bytes) :
    ∃ fill, (unescaped charset text).length + fill.length = gap.length + text.length ∧
      ∀ rounds, text.length < rounds → ∀ rest,
        unescapeLoop charset rounds front.length (front.length + gap.length)
            (front ++ (gap ++ (text ++ 0 :: rest))) =
          some ((front ++ unescaped charset text).length,
            front ++ (unescaped charset text ++ (fill ++ 0 :: rest))) := by
  -- a backslash that is dropped passes two bytes at once
  induction size : text.length using Nat.strongRecOn generalizing text front gap with
  | ind size ih =>
      cases text with
      | nil =>
          refine ⟨gap, by simp [unescaped, ← size], fun rounds enough rest => ?_⟩
          obtain ⟨rounds, rfl⟩ := Nat.exists_eq_succ_of_ne_zero (by omega : rounds ≠ 0)
          rw [unescapeLoop, List.nil_append, read_middle]
          simp [unescaped]
      | cons char text =>
          rw [List.mem_cons, not_or] at visible
          rw [List.length_cons] at size
          have nonzero := Ne.symm visible.1
          have tails : (gap ++ [char]).tail.length = gap.length := by simp
          by_cases drops : char = 92 ∧ ∃ next ∈ text.head?, next ∈ charset
          · obtain ⟨rfl, next, head, member⟩ := drops
            obtain ⟨text, rfl⟩ := List.head?_eq_some_iff.mp head
            rw [List.mem_cons, not_or] at visible
            rw [List.length_cons] at size
            obtain ⟨fill, length, later⟩ := ih text.length (by omega) visible.2.2 (front ++ [next])
              ((gap ++ [92]).tail ++ [next]) rfl
            rw [unescaped_drop member]
            refine ⟨fill, ?_, fun rounds enough rest => ?_⟩
            · rw [List.length_append, tails, List.length_singleton] at length
              simp only [List.length_cons]
              omega
            · obtain ⟨rounds, rfl⟩ := Nat.exists_eq_succ_of_ne_zero (by omega : rounds ≠ 0)
              rw [List.cons_append, List.cons_append, unescapeLoop_drop member,
                later rounds (by omega)]
              simp
          · have keeps : char = 92 → ∀ next ∈ text.head?, next ∉ charset := by
              intro backslash next head member
              exact drops ⟨backslash, next, head, member⟩
            obtain ⟨fill, length, later⟩ := ih text.length (by omega) visible.2 (front ++ [char])
              (gap ++ [char]).tail rfl
            rw [unescaped_keep keeps]
            refine ⟨fill, ?_, fun rounds enough rest => ?_⟩
            · rw [tails] at length
              simp only [List.length_cons]
              omega
            · obtain ⟨rounds, rfl⟩ := Nat.exists_eq_succ_of_ne_zero (by omega : rounds ≠ 0)
              have step : unescapeLoop charset (rounds + 1) front.length (front.length + gap.length)
                  (front ++ (gap ++ (char :: text ++ 0 :: rest))) =
                  unescapeLoop charset rounds (front ++ [char]).length
                    ((front ++ [char]).length + (gap ++ [char]).tail.length)
                    (front ++ [char] ++ ((gap ++ [char]).tail ++ (text ++ 0 :: rest))) := by
                cases text with
                | nil => exact unescapeLoop_keep nonzero (fun _ => plain) front gap rest
                | cons next text =>
                    exact unescapeLoop_keep nonzero (fun backslash => keeps backslash next rfl)
                      front gap (text ++ 0 :: rest)
              rw [step, later rounds (by omega)]
              simp

theorem unescape_nonempty {s : Bytes} {first : UInt8} (read : s[0]? = some first)
    (nonzero : first ≠ 0) :
    unescape charset s = (unescapeLoop charset s.length 0 0 s).bind fun unescaped =>
      Block.write unescaped.2 unescaped.1 0 := by
  simp only [unescape, read, Option.bind_eq_bind, Option.bind_some, nonzero, ne_eq,
    not_false_eq_true, if_true]

theorem unescape_editsTo (charset text : CText) :
    EditsTo (unescape charset.bytes) text.bytes (unescaped charset.bytes text.bytes) := by
  obtain ⟨bytes, visible⟩ := text
  dsimp only
  cases bytes with
  | nil => exact editsTo_same fun _ => rfl
  | cons first bytes =>
      have nonzero : first ≠ 0 := by
        rintro rfl
        exact visible List.mem_cons_self
      obtain ⟨fill, length, loop⟩ := unescapeLoop_text charset.visible visible [] []
      refine ⟨(fill ++ [0]).tail, ?_, fun rest => ?_⟩
      · rw [List.length_nil, Nat.zero_add] at length
        simpa using length
      · have longer : (first :: bytes).length < (first :: bytes ++ 0 :: rest).length := by
          simp only [List.length_append, List.length_cons]
          omega
        have ran := loop _ longer rest
        simp only [List.nil_append, List.length_nil, Nat.add_zero] at ran
        rw [unescape_nonempty rfl nonzero, ran, Option.bind_some]
        exact Block.write_behind _ fill rest 0

theorem escaped_cons_plain (absent : char ∉ charset) :
    escaped charset (char :: text) = char :: escaped charset text := by
  simp [escaped, absent]

theorem escaped_cons_member (member : char ∈ charset) :
    escaped charset (char :: text) = 92 :: char :: escaped charset text := by
  simp [escaped, member]

/-- A character of the set only stands behind a backslash. -/
theorem escaped_head (charset text : Bytes) :
    ∀ next ∈ (escaped charset text).head?, next ∈ charset → next = 92 := by
  cases text with
  | nil => simp [escaped]
  | cons char text =>
      by_cases member : char ∈ charset
      · rw [escaped_cons_member member]
        rintro next head -
        exact (Option.some.inj head).symm
      · rw [escaped_cons_plain member]
        intro next head listed
        exact absurd (Option.some.inj head ▸ listed) member

theorem unescaped_escaped (charset text : Bytes) : unescaped charset (escaped charset text) = text := by
  induction text with
  | nil => rfl
  | cons char text ih =>
      by_cases member : char ∈ charset
      · rw [escaped_cons_member member, unescaped_drop member, ih]
      · have keeps : char = 92 → ∀ next ∈ (escaped charset text).head?, next ∉ charset := by
          intro backslash next head listed
          have same := escaped_head charset text next head listed
          exact member (backslash.trans same.symm ▸ listed)
        rw [escaped_cons_plain member, unescaped_keep keeps, ih]

theorem escaped_visible (charset : Bytes) (visible : 0 ∉ text) : 0 ∉ escaped charset text := by
  intro zero
  obtain ⟨char, member, listed⟩ := List.mem_flatMap.mp zero
  have same : char = 0 := by
    split at listed
    · simpa [eq_comm] using listed
    · simpa [eq_comm] using listed
  exact visible (same ▸ member)

/-- Whatever the set is, also when the backslash is in it, unescaping in place undoes the
escaping of every text, as long as the escaped text is shorter than 2^31 bytes: the code counts
it in an `int`. -/
theorem unescape_escaped (charset text : CText) :
    EditsTo (unescape charset.bytes) (escaped charset.bytes text.bytes) text.bytes := by
  have edits := unescape_editsTo charset
    ⟨escaped charset.bytes text.bytes, escaped_visible charset.bytes text.visible⟩
  dsimp only at edits
  rwa [unescaped_escaped] at edits

end Escapes

end Str

end SimpleProcessMonitor
