import Mathlib.Data.List.Basic

/-!
A block of memory whose accesses are checked: `none` is an access outside the block.
-/

namespace Block

variable {α : Type}

/-- `memcpy` into the block. -/
def store (block : List α) (dest : Nat) (values : List α) : Option (List α) :=
  if dest + values.length ≤ block.length then
    some (block.take dest ++ values ++ block.drop (dest + values.length))
  else none

/-- `memmove` within the block. -/
def move (block : List α) (dest src count : Nat) : Option (List α) :=
  if src + count ≤ block.length then store block dest ((block.drop src).take count)
  else none

def write (block : List α) (index : Nat) (value : α) : Option (List α) :=
  store block index [value]

theorem store_length {block values result : List α} {dest : Nat}
    (stored : store block dest values = some result) : result.length = block.length := by
  unfold store at stored
  split at stored
  · rename_i inside
    rw [← Option.some.inj stored]
    simp only [List.length_append, List.length_take, List.length_drop]
    omega
  · cases stored

theorem write_eq_set {block result : List α} {index : Nat} {value : α}
    (written : write block index value = some result) : result = block.set index value := by
  unfold write store at written
  split at written
  · rename_i inside
    rw [List.length_singleton] at inside
    rw [← Option.some.inj written, List.set_eq_take_append_cons_drop, if_pos (by omega)]
    simp
  · cases written

theorem move_front {block result : List α} {src count : Nat}
    (moved : move block 0 src count = some result) :
    result = (block.drop src).take count ++ block.drop count := by
  unfold move store at moved
  split at moved
  · rename_i inside
    have values : ((block.drop src).take count).length = count := by
      rw [List.length_take, List.length_drop]
      omega
    rw [values, if_pos (by omega)] at moved
    rw [← Option.some.inj moved]
    simp
  · cases moved

theorem store_middle (front back : List α) {old values : List α}
    (same : old.length = values.length) :
    store (front ++ (old ++ back)) front.length values = some (front ++ (values ++ back)) := by
  have inside : front.length + values.length ≤ (front ++ (old ++ back)).length := by
    simp only [List.length_append]
    omega
  rw [store, if_pos inside, List.take_left, ← same, ← List.drop_drop, List.drop_left,
    List.drop_left, List.append_assoc]

theorem write_middle (front back : List α) (old value : α) :
    write (front ++ old :: back) front.length value = some (front ++ value :: back) := by
  have same : [old].length = [value].length := rfl
  exact store_middle front back same

/-- A value is written at the front of a gap that ends where the value stands already. -/
theorem write_behind (front gap back : List α) (value : α) :
    write (front ++ (gap ++ value :: back)) front.length value =
      some (front ++ value :: ((gap ++ [value]).tail ++ back)) := by
  cases gap with
  | nil => exact write_middle front back value value
  | cons old gap =>
      have written := write_middle front (gap ++ value :: back) old value
      simpa using written

/-- A stretch of the block is exchanged for another one: what stands behind it is moved
first, and then the new values are stored in front of it. -/
theorem move_store_iff {block values result : List α} {index width count : Nat} :
    (move block (index + values.length) (index + width) count).bind (store · index values) =
        some result ↔
      index + width + count ≤ block.length ∧ index + values.length + count ≤ block.length ∧
        result = block.take index ++ values ++ (block.drop (index + width)).take count ++
          block.drop (index + values.length + count) := by
  by_cases source : index + width + count ≤ block.length
  · have moved : ((block.drop (index + width)).take count).length = count := by
      rw [List.length_take, List.length_drop]
      omega
    by_cases target : index + values.length + count ≤ block.length
    · have front : (block.take (index + values.length)).length = index + values.length := by
        rw [List.length_take]
        omega
      have fits : index + values.length ≤ (block.take (index + values.length) ++
          (block.drop (index + width)).take count ++
            block.drop (index + values.length + count)).length := by
        simp only [List.length_append, front]
        omega
      have kept : (block.take (index + values.length)).take index = block.take index := by
        rw [List.take_take, Nat.min_eq_left (by omega)]
      simp only [move, source, store, moved, target, if_true, Option.bind_some, fits, true_and]
      simp only [List.append_assoc, Option.some.injEq]
      rw [List.take_append_of_le_length (by omega), kept, List.drop_left' front]
      exact eq_comm
    · simp [move, source, store, moved, target]
  · simp [move, source]

end Block
