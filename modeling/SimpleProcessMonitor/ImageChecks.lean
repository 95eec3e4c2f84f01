import SimpleProcessMonitor.ImageCore

/-!
The counters of an io file and the limit of open files in a limits file, read back from the
files that the kernel writes.
-/

namespace SimpleProcessMonitor

open CString Decimal

/-! The counters of the io file. -/

theorem sscanf_row {row : Row} (plain : row.Plain) {kind : IntKind} (fits : InRange kind row.value)
    (rest : Bytes) :
    sscanf [.space, .int kind] ((row.text ++ rest).drop row.label.length) = [(row.value : Int)] := by
  rw [row.text_drop, sscanf, sscanf, scanInt_skipSpace, plain.scanInt fits]
  rfl

/-- No key stands in an earlier label. -/
def Ordered (rows : List Row) : Prop :=
  rows.Pairwise fun first second => strstr second.label first.label = none

instance (rows : List Row) : Decidable (Ordered rows) :=
  inferInstanceAs (Decidable (rows.Pairwise fun first second => strstr second.label first.label = none))

theorem scanIoKeys_rows {keys : List (String × (Int → ProcData → ProcData))} {rows : List Row}
    (labels : keys.map (fun key => bytes key.1) = rows.map Row.label)
    (isKey : ∀ row ∈ rows, Key row.label) (fits : ∀ row ∈ rows, InRange .ulong row.value)
    {before : List Row} (ordered : Ordered (before ++ rows))
    (plain : ∀ row ∈ before ++ rows, row.Plain) (rest : Bytes) (data : ProcData) :
    scanIoKeys keys (rowsText (before ++ rows) ++ rest) data =
      (true, assign (keys.map Prod.snd) (rows.map fun row => (row.value : Int)) data) := by
  induction keys generalizing rows before data with
  | nil =>
      obtain rfl : rows = [] := List.map_eq_nil_iff.mp labels.symm
      rfl
  | cons key keys ih =>
      obtain ⟨name, set⟩ := key
      cases rows with
      | nil => cases labels
      | cons row rows =>
          obtain ⟨label, labels⟩ := List.cons.inj labels
          have elsewhere := (List.pairwise_append.mp ordered).2.2
          have found : RowAt (before ++ row :: rows) row.label row before rows :=
            ⟨rfl, rfl, fun other member => elsewhere other member row List.mem_cons_self⟩
          have located := found.strstr (isKey row List.mem_cons_self) plain rest
          have value := sscanf_row (plain row (by simp)) (fits row List.mem_cons_self)
            (rowsText rows ++ rest)
          have after : row.text ++ (rowsText rows ++ rest) = rowsText ([row] ++ rows) ++ rest := by
            simp [rowsText]
          have suffix : [row] ++ rows <:+ before ++ row :: rows := ⟨before, rfl⟩
          have later := ih labels (fun other member => isKey other (List.mem_cons_of_mem row member))
            (fun other member => fits other (List.mem_cons_of_mem row member))
            (List.Pairwise.sublist suffix.sublist ordered)
            (fun other member => plain other (suffix.subset member)) (set row.value data)
          rw [after] at located value
          simp only [scanIoKeys, scanAfter, label, located, counterFormat, value]
          exact later

theorem counterRow_plain {label : String} (ends : (bytes label).getLast? = some 58)
    (once : 58 ∉ (bytes label).dropLast) (visible : 0 ∉ bytes label) (value : UInt64) :
    (counterRow label value).Plain where
  gapped := List.cons_ne_nil 32 []
  blank := List.forall_mem_singleton.mpr (Or.inl rfl)
  unitPlain := fun _ member => absurd member List.not_mem_nil
  unitStops := noDigit_cons rfl []
  labelEnds := ends
  labelOnce := once
  labelVisible := visible

theorem counterRow_length (label : String) (value : UInt64) :
    (counterRow label value).text.length ≤ (bytes label).length + 22 := by
  have below := value.toNat_lt
  have digits : (decimal value.toNat).length ≤ 20 := decimal_short (by decide) (by omega)
  change (bytes label ++ (32 :: (decimal value.toNat ++ [10]))).length ≤ _
  simp only [List.length_append, List.length_cons, List.length_nil]
  omega

theorem counterRow_fits (label : String) (value : UInt64) :
    InRange .ulong (counterRow label value).value := by
  have below := value.toNat_lt
  change 0 ≤ (value.toNat : Int) ∧ (value.toNat : Int) < 2 ^ 64
  omega

namespace IoCounters

variable (io : IoCounters)

theorem rows_counter {row : Row} (member : row ∈ io.rows) :
    ∃ label value, row = counterRow label value ∧ Key (bytes label) ∧
      58 ∉ (bytes label).dropLast ∧ 0 ∉ bytes label ∧ (bytes label).length ≤ 22 := by
  simp only [rows, List.mem_cons, List.not_mem_nil, or_false] at member
  rcases member with rfl | rfl | rfl | rfl | rfl | rfl | rfl <;>
    exact ⟨_, _, rfl, ⟨by decide, by decide, by decide, by decide⟩, by decide, by decide, by decide⟩

theorem rows_plain : ∀ row ∈ io.rows, row.Plain := by
  intro row member
  obtain ⟨label, value, rfl, isKey, once, visible, -⟩ := io.rows_counter member
  exact counterRow_plain isKey.ends once visible value

theorem rows_ordered : Ordered io.rows := by
  have labels : (io.rows.map Row.label).Pairwise fun first second => strstr second first = none := by
    change List.Pairwise _ [bytes "rchar:", bytes "wchar:", bytes "syscr:", bytes "syscw:",
      bytes "read_bytes:", bytes "write_bytes:", bytes "cancelled_write_bytes:"]
    decide
  exact List.pairwise_map.mp labels

theorem parse {files : ProcFiles} (written : files.io = .content (rowsText io.rows))
    (data : ProcData) :
    parseProcPidIo true files data = (true, { data with read := io.read, write := io.write }) := by
  have visible := rowsText_visible io.rows_plain
  have inBuffer : (rowsText io.rows).length < 4096 := by
    have short (row : Row) (member : row ∈ io.rows) : row.text.length ≤ 44 := by
      obtain ⟨label, value, rfl, -, -, -, labelShort⟩ := io.rows_counter member
      exact (counterRow_length label value).trans (by omega)
    have seven : io.rows.length = 7 := rfl
    have whole := rowsText_length_le short
    omega
  have read : fileReadProc 4096 files.io = some (rowsText io.rows) := by
    rw [written]
    exact congrArg some (List.take_of_length_le (by omega))
  have scanned := @scanIoKeys_rows ioKeys (io.rows.take 6) rfl
    (fun row member => by
      obtain ⟨label, value, rfl, isKey, -⟩ := io.rows_counter (List.mem_of_mem_take member)
      exact isKey)
    (fun row member => by
      obtain ⟨label, value, rfl, -⟩ := io.rows_counter (List.mem_of_mem_take member)
      exact counterRow_fits label value)
    [] (List.Pairwise.sublist (List.take_sublist 6 io.rows) io.rows_ordered)
    (fun row member => io.rows_plain row (List.mem_of_mem_take member))
    (rowsText (io.rows.drop 6)) data
  have whole : rowsText ([] ++ io.rows.take 6) ++ rowsText (io.rows.drop 6) = rowsText io.rows := by
    simp [rowsText, ← List.flatMap_append]
  rw [whole] at scanned
  simp only [parseProcPidIo, if_true, read, cString_of_visible visible, scanned]
  rfl

end IoCounters

/-! The limit of open files. -/

theorem pad_length (width : Nat) (text : Bytes) : (pad width text).length = max width text.length := by
  rw [pad, List.length_append, List.length_replicate]
  omega

theorem mem_pad {width : Nat} {text : Bytes} {byte : UInt8} (member : byte ∈ pad width text) :
    byte ∈ text ∨ byte = 32 := by
  rcases List.mem_append.mp member with inText | padding
  · exact Or.inl inText
  · exact Or.inr (List.eq_of_mem_replicate padding)

theorem limitText_length (value : LimitValue) : (limitText value).length ≤ 20 := by
  cases value with
  | none => decide
  | some value =>
      have below := value.toNat_lt
      exact decimal_short (by decide) (by omega)

theorem limitText_plain {value : LimitValue} {byte : UInt8} (member : byte ∈ limitText value) :
    byte ≠ 0 ∧ byte ≠ 10 := by
  cases value with
  | none =>
      have letters : (bytes "unlimited").all (fun byte => byte != 0 && byte != 10) := by decide
      simpa using List.all_eq_true.mp letters byte member
  | some value => exact ⟨(decimal_plain member).1, (decimal_plain member).2.1⟩

theorem limitNames_plain : ∀ name ∈ limitNames,
    (bytes name.1).length ≤ 25 ∧ (bytes name.2).length ≤ 10 ∧
      (∀ byte ∈ bytes name.1, byte ≠ 0 ∧ byte ≠ 10) ∧ ∀ byte ∈ bytes name.2, byte ≠ 0 ∧ byte ≠ 10 := by
  have columns : limitNames.all (fun name =>
      (bytes name.1).length ≤ 25 && (bytes name.2).length ≤ 10 &&
        (bytes name.1).all (fun byte => byte != 0 && byte != 10) &&
          (bytes name.2).all fun byte => byte != 0 && byte != 10) := by decide +kernel
  intro name listed
  simpa [and_assoc] using List.all_eq_true.mp columns name listed

theorem limitLine_plain {name : String × String} (listed : name ∈ limitNames)
    (soft hard : LimitValue) :
    (∀ byte ∈ limitLine name.1 name.2 soft hard, byte ≠ 0 ∧ byte ≠ 10) ∧
      (limitLine name.1 name.2 soft hard).length + 1 < bufferStrlen := by
  obtain ⟨nameShort, unitShort, namePlain, unitPlain⟩ := limitNames_plain name listed
  have softShort := limitText_length soft
  have hardShort := limitText_length hard
  have space : (32 : UInt8) ≠ 0 ∧ (32 : UInt8) ≠ 10 := by decide
  constructor
  · intro byte member
    have padded {width : Nat} {text : Bytes} (plain : ∀ byte ∈ text, byte ≠ 0 ∧ byte ≠ 10)
        (inside : byte ∈ pad width text) : byte ≠ 0 ∧ byte ≠ 10 := by
      rcases mem_pad inside with inText | rfl
      · exact plain byte inText
      · exact space
    simp only [limitLine, List.mem_append, List.mem_cons] at member
    rcases member with first | rfl | second | rfl | third | rfl | last
    · exact padded namePlain first
    · exact space
    · exact padded (fun _ => limitText_plain) second
    · exact space
    · exact padded (fun _ => limitText_plain) third
    · exact space
    · exact padded unitPlain last
  · simp only [limitLine, List.length_append, List.length_cons, pad_length, bufferStrlen]
    omega

theorem limitLine_other {name : String × String} (other : name ∈ limitNames.eraseIdx 7)
    (soft hard : LimitValue) :
    sscanf limitFormat (cString (limitLine name.1 name.2 soft hard ++ [10])) = [] := by
  simp only [limitNames, List.eraseIdx, List.mem_cons, List.not_mem_nil, or_false] at other
  rcases other with rfl | rfl | rfl | rfl | rfl | rfl | rfl | rfl | rfl | rfl | rfl | rfl | rfl |
    rfl | rfl <;> rfl

theorem replicate_blank (count : Nat) : ∀ byte ∈ List.replicate count (32 : UInt8), isspace byte = true := by
  intro byte member
  rw [List.eq_of_mem_replicate member]
  rfl

theorem scanInt_limit {gap : Bytes} (blank : ∀ byte ∈ gap, isspace byte = true)
    (value : LimitValue) (rest : Bytes) :
    ∃ padding, (∀ byte ∈ padding, isspace byte = true) ∧
      scanInt .int (gap ++ (pad 20 (limitText value) ++ 32 :: rest)) =
        value.map fun value => (storedLimit value, padding ++ 32 :: rest) := by
  refine ⟨List.replicate (20 - (limitText value).length) 32, replicate_blank _, ?_⟩
  rw [← scanInt_skipSpace, skipSpace_append blank, scanInt_skipSpace, pad, List.append_assoc]
  cases value with
  | none => rfl
  | some value =>
      have stop : NoDigit (List.replicate (20 - (limitText (some value)).length) 32 ++ 32 :: rest) := by
        cases 20 - (limitText (some value)).length with
        | zero => exact noDigit_cons rfl rest
        | succ count => exact noDigit_cons rfl _
      have text : limitText (some value) = decimal value.toNat := rfl
      rw [text] at stop ⊢
      rw [scanInt_digits .int (decimal_nonempty _) (decimal_digits _) stop, decimal_value]
      rfl

/-- Of the two limits, a second value is read only behind a first. -/
theorem limitLine_openFiles (soft hard : LimitValue) :
    sscanf limitFormat (cString (limitLine "Max open files" "files" soft hard ++ [10])) =
      match soft with
      | none => []
      | some soft => storedLimit soft :: (hard.map storedLimit).toList := by
  have visible : 0 ∉ limitLine "Max open files" "files" soft hard ++ [10] := by
    intro member
    rcases List.mem_append.mp member with inLine | newline
    · exact ((limitLine_plain (show ("Max open files", "files") ∈ limitNames by decide) soft hard).1
        0 inLine).1 rfl
    · cases List.mem_singleton.mp newline
  have literals (rest : Bytes) : sscanf limitFormat (bytes "Max open files" ++ rest) =
      sscanf [.space, .int .int, .space, .int .int] rest := rfl
  have text : limitLine "Max open files" "files" soft hard ++ [10] =
      bytes "Max open files" ++ (List.replicate 12 32 ++ (pad 20 (limitText soft) ++
        32 :: (pad 20 (limitText hard) ++ 32 :: (pad 10 (bytes "files") ++ [10])))) := by
    rw [limitLine]
    simp only [List.append_assoc, List.cons_append]
    rfl
  obtain ⟨padding, blank, softRead⟩ := scanInt_limit (replicate_blank 12) soft
    (pad 20 (limitText hard) ++ 32 :: (pad 10 (bytes "files") ++ [10]))
  rw [cString_of_visible visible, text, literals, sscanf, sscanf, scanInt_skipSpace, softRead]
  cases soft with
  | none => rfl
  | some soft =>
      have gapBlank : ∀ byte ∈ padding ++ [32], isspace byte = true := by
        intro byte member
        rcases List.mem_append.mp member with inPadding | last
        · exact blank byte inPadding
        · rw [List.mem_singleton.mp last]
          rfl
      obtain ⟨_, _, hardRead⟩ := scanInt_limit gapBlank hard (pad 10 (bytes "files") ++ [10])
      rw [List.append_assoc, List.singleton_append] at hardRead
      simp only [Option.map_some, sscanf, scanInt_skipSpace, hardRead]
      cases hard <;> rfl

theorem findLimit_skip {before : List Bytes}
    (other : ∀ line ∈ before, (sscanf limitFormat (cString line)).length < 2) (after : List Bytes) :
    findLimit (before ++ after) = findLimit after := by
  induction before with
  | nil => rfl
  | cons line before ih =>
      have few := other line List.mem_cons_self
      have later := ih fun next member => other next (List.mem_cons_of_mem line member)
      rw [List.cons_append, findLimit]
      generalize sscanf limitFormat (cString line) = values at few
      rcases values with _ | ⟨first, _ | ⟨second, values⟩⟩
      · exact later
      · exact later
      · simp only [List.length_cons] at few
        omega

namespace Limits

variable (limits : Limits)

theorem lines_split : ∃ before after,
    limits.lines = before ++ limitLine "Max open files" "files" (limits.soft 7) (limits.hard 7) :: after ∧
      ∀ line ∈ before ++ after, sscanf limitFormat (cString (line ++ [10])) = [] := by
  let line := fun name : (String × String) × Nat =>
    limitLine name.1.1 name.1.2 (limits.soft name.2) (limits.hard name.2)
  refine ⟨limits.lines.take 8, (limitNames.zipIdx.drop 8).map line, rfl, ?_⟩
  have header : limits.lines.take 8 = limits.lines.head (List.cons_ne_nil _ _) ::
      (limitNames.zipIdx.take 7).map line := rfl
  have others : ∀ name ∈ limitNames.zipIdx.take 7 ++ limitNames.zipIdx.drop 8,
      name.1 ∈ limitNames.eraseIdx 7 := by decide
  intro text member
  rw [header, List.cons_append, ← List.map_append] at member
  rcases List.mem_cons.mp member with rfl | inLines
  · rfl
  · obtain ⟨name, listed, rfl⟩ := List.mem_map.mp inLines
    exact limitLine_other (others name listed) _ _

theorem lines_plain : ∀ line ∈ limits.lines, 10 ∉ line ∧ line.length + 1 < bufferStrlen := by
  intro line member
  rcases List.mem_cons.mp member with rfl | inLines
  · exact ⟨by decide, by decide⟩
  · obtain ⟨name, listed, rfl⟩ := List.mem_map.mp inLines
    have inNames : name.1 ∈ limitNames := by
      have position := List.mem_zipIdx_iff_getElem?.mp listed
      exact List.mem_of_getElem? position
    have plain := limitLine_plain inNames (limits.soft name.2) (limits.hard name.2)
    exact ⟨fun newline => (plain.1 10 newline).2 rfl, plain.2⟩

theorem findLimit_lines :
    findLimit (fgetsLines bufferStrlen limits.text.length limits.text) =
      match limits.soft 7, limits.hard 7 with
      | some soft, some hard => some ⟨storedLimit soft, storedLimit hard⟩
      | _, _ => none := by
  obtain ⟨before, after, split, others⟩ := limits.lines_split
  have enough : limits.lines.length ≤ limits.text.length := by
    rw [Limits.text, List.length_flatMap]
    refine List.length_le_sum_of_one_le _ ?_ |>.trans' (by simp)
    simp
  have lines := fgetsLines_lines limits.lines_plain [] enough
  change fgetsLines bufferStrlen limits.text.length (limits.text ++ []) = _ at lines
  have ended (fuel : Nat) : fgetsLines bufferStrlen fuel [] = [] := by
    cases fuel <;> rfl
  rw [List.append_nil, ended, List.append_nil] at lines
  have passed (part : List Bytes) (inside : ∀ line ∈ part, line ∈ before ++ after) :
      ∀ line ∈ part.map (· ++ [10]), (sscanf limitFormat (cString line)).length < 2 := by
    intro line member
    obtain ⟨own, listed, rfl⟩ := List.mem_map.mp member
    rw [others own (inside own listed)]
    decide
  have nothingAfter := findLimit_skip
    (passed after fun line member => List.mem_append_right before member) []
  rw [List.append_nil] at nothingAfter
  have own := limitLine_openFiles (limits.soft 7) (limits.hard 7)
  rw [lines, split, List.map_append, List.map_cons,
    findLimit_skip (passed before fun line member => List.mem_append_left after member), findLimit, own]
  cases limits.soft 7 with
  | none => exact nothingAfter
  | some soft =>
      cases limits.hard 7 with
      | none => exact nothingAfter
      | some hard => rfl

end Limits

end SimpleProcessMonitor
