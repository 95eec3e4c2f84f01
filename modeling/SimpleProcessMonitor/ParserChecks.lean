import SimpleProcessMonitor.ProcfsCore

/-!
The parsers of one process' files as assignments: each of them writes values that its file
alone determines to a fixed list of fields, in order, and succeeds if it reaches the last.
-/

namespace SimpleProcessMonitor

open CString

/-- A parser that succeeds if it has a value for each of its arguments. -/
def Assigns (parse : ProcData → Bool × ProcData) (arguments : List (Int → ProcData → ProcData)) :
    Prop :=
  ∃ values : List Int, values.length ≤ arguments.length ∧ ∀ data,
    parse data = (values.length == arguments.length, assign arguments values data)

def andThen (first second : ProcData → Bool × ProcData) (data : ProcData) : Bool × ProcData :=
  match first data with
  | (false, data) => (false, data)
  | (true, data) => second data

theorem assigns_fails {arguments : List (Int → ProcData → ProcData)} (nonempty : arguments ≠ []) :
    Assigns (fun data => (false, data)) arguments := by
  refine ⟨[], Nat.zero_le _, ?_⟩
  intro data
  cases arguments with
  | nil => exact absurd rfl nonempty
  | cons set arguments => rfl

theorem Assigns.andThen {first second : ProcData → Bool × ProcData}
    {firstArguments secondArguments : List (Int → ProcData → ProcData)}
    (left : Assigns first firstArguments) (right : Assigns second secondArguments)
    (nonempty : secondArguments ≠ []) :
    Assigns (andThen first second) (firstArguments ++ secondArguments) := by
  obtain ⟨values, few, leftEq⟩ := left
  obtain ⟨others, fewOthers, rightEq⟩ := right
  have positive : 0 < secondArguments.length := List.length_pos_iff.mpr nonempty
  by_cases full : values.length = firstArguments.length
  · refine ⟨values ++ others, by simp; omega, ?_⟩
    intro data
    rw [assign_append _ _ _ _ full]
    simp [SimpleProcessMonitor.andThen, leftEq, rightEq, full]
  · refine ⟨values, by simp; omega, ?_⟩
    intro data
    have stopped : (values.length == firstArguments.length) = false := by simpa using full
    have short : (values.length == (firstArguments ++ secondArguments).length) = false := by
      simp
      omega
    rw [assign_append_left _ _ _ few, short]
    simp only [SimpleProcessMonitor.andThen, leftEq, stopped]

/-! The single parsers. -/

theorem parseProcPidStat_assigns (files : ProcFiles) :
    Assigns (parseProcPidStat files) statArguments := by
  have failing : Assigns (fun data => (false, data)) statArguments := assigns_fails (by decide)
  cases read : fileReadProc 8192 files.stat with
  | none =>
      have parse : parseProcPidStat files = fun data => (false, data) := by
        funext data
        simp [parseProcPidStat, read]
      rwa [parse]
  | some buf =>
      cases found : strrchr 41 (cString buf) with
      | none =>
          have parse : parseProcPidStat files = fun data => (false, data) := by
            funext data
            simp [parseProcPidStat, read, found]
          rwa [parse]
      | some tmp =>
          refine ⟨sscanf statFormat (tmp.drop 2), sscanf_length _ _, ?_⟩
          intro data
          simp [parseProcPidStat, read, found, statArguments]

def scanKey (key : String) (format : List Directive) (arguments : List (Int → ProcData → ProcData))
    (text : Bytes) (data : ProcData) : Bool × ProcData :=
  match scanAfter key format arguments text data with
  | none => (false, data)
  | some (matched, data, _) => (matched, data)

theorem scanKey_assigns (key : String) {format : List Directive}
    {arguments : List (Int → ProcData → ProcData)} (text : Bytes) (nonempty : arguments ≠ [])
    (conversions : format.countP Directive.assigns = arguments.length) :
    Assigns (scanKey key format arguments text) arguments := by
  cases found : strstr (bytes key) text with
  | none =>
      have parse : scanKey key format arguments text = fun data => (false, data) := by
        funext data
        simp [scanKey, scanAfter, found]
      rw [parse]
      exact assigns_fails nonempty
  | some tmp =>
      refine ⟨sscanf format (tmp.drop (bytes key).length), conversions ▸ sscanf_length _ _, ?_⟩
      intro data
      simp [scanKey, scanAfter, found]

theorem parseProcPidStatus_keys {files : ProcFiles} {buf : Bytes}
    (read : fileReadProc 4096 files.status = some buf) :
    parseProcPidStatus files = andThen
      (scanKey "Uid:" uidFormat uidArguments (cString buf))
      (scanKey "Gid:" gidFormat gidArguments (cString buf)) := by
  funext data
  rcases uidScan : scanAfter "Uid:" uidFormat uidArguments (cString buf) data with
    _ | ⟨_ | _, uids, _⟩
  · simp [parseProcPidStatus, read, andThen, scanKey, uidScan]
  · simp [parseProcPidStatus, read, andThen, scanKey, uidScan]
  · rcases gidScan : scanAfter "Gid:" gidFormat gidArguments (cString buf) uids with
      _ | ⟨_, gids, _⟩
    · simp [parseProcPidStatus, read, andThen, scanKey, uidScan, gidScan]
    · simp [parseProcPidStatus, read, andThen, scanKey, uidScan, gidScan]

theorem parseProcPidStatus_assigns (files : ProcFiles) :
    Assigns (parseProcPidStatus files) (uidArguments ++ gidArguments) := by
  cases read : fileReadProc 4096 files.status with
  | none =>
      have parse : parseProcPidStatus files = fun data => (false, data) := by
        funext data
        simp [parseProcPidStatus, read]
      rw [parse]
      exact assigns_fails (by decide)
  | some buf =>
      rw [parseProcPidStatus_keys read]
      exact (scanKey_assigns "Uid:" _ (by decide) rfl).andThen
        (scanKey_assigns "Gid:" _ (by decide) rfl) (by decide)

theorem scanIoKeys_assigns (keys : List (String × (Int → ProcData → ProcData))) (text : Bytes) :
    Assigns (scanIoKeys keys text) (keys.map Prod.snd) := by
  induction keys generalizing text with
  | nil => exact ⟨[], Nat.zero_le _, fun _ => rfl⟩
  | cons entry rest ih =>
      obtain ⟨key, set⟩ := entry
      cases found : strstr (bytes key) text with
      | none =>
          have parse : scanIoKeys ((key, set) :: rest) text = fun data => (false, data) := by
            funext data
            simp [scanIoKeys, scanAfter, found]
          rw [parse]
          exact assigns_fails (by simp)
      | some tmp =>
          obtain ⟨later, fewLater, laterEq⟩ := ih tmp
          have few := sscanf_length counterFormat (tmp.drop (bytes key).length)
          match values : sscanf counterFormat (tmp.drop (bytes key).length) with
          | [] =>
              refine ⟨[], Nat.zero_le _, ?_⟩
              intro data
              simp [scanIoKeys, scanAfter, found, values]
          | [value] =>
              refine ⟨value :: later, by simpa using fewLater, ?_⟩
              intro data
              simp [scanIoKeys, scanAfter, found, values, laterEq, assign]
          | _ :: _ :: _ =>
              rw [values] at few
              simp [counterFormat, Directive.assigns] at few

/-- Whether the io file of the process is there to be read. -/
def ioRead (sys : Sys) (files : ProcFiles) : Bool :=
  sys.hasIOStatistics && (fileReadProc 4096 files.io).isSome

theorem parseProcPidIo_assigns {sys : Sys} {files : ProcFiles} (read : ioRead sys files = true) :
    Assigns (parseProcPidIo sys.hasIOStatistics files) (ioKeys.map Prod.snd) := by
  simp only [ioRead, Bool.and_eq_true] at read
  obtain ⟨statistics, readable⟩ := read
  obtain ⟨buf, content⟩ := Option.isSome_iff_exists.mp readable
  have parse : parseProcPidIo sys.hasIOStatistics files = scanIoKeys ioKeys (cString buf) := by
    funext data
    simp [parseProcPidIo, statistics, content]
  rw [parse]
  exact scanIoKeys_assigns ioKeys (cString buf)

theorem parseProcPidIo_unread {sys : Sys} {files : ProcFiles} (unread : ioRead sys files = false)
    (data : ProcData) : parseProcPidIo sys.hasIOStatistics files data = (true, data) := by
  cases statistics : sys.hasIOStatistics with
  | false => simp [parseProcPidIo]
  | true =>
      have absent : fileReadProc 4096 files.io = none := by simpa [ioRead, statistics] using unread
      simp [parseProcPidIo, absent]

end SimpleProcessMonitor
