import SimpleProcessMonitor.ScanChecks

/-!
The credentials in a status file as the kernel lays it out, for every name of the process:
the search for the keys begins in the line that holds the name.
-/

namespace SimpleProcessMonitor

open CString

structure UserId where
  text : Bytes
  nonempty : text ≠ []
  digits : ∀ byte ∈ text, isdigit byte = true
  small : digitsValue text < 2 ^ 32

def UserId.stored (id : UserId) : Int :=
  wrapSigned 32 (digitsValue id.text)

structure ProcessName where
  text : Bytes
  short : text.length ≤ 15
  visible : 0 ∉ text

/-- Newline and backslash are written as two bytes. -/
def escapeByte (byte : UInt8) : Bytes :=
  if byte = 10 then [92, 110] else if byte = 92 then [92, 92] else [byte]

def ProcessName.escaped (name : ProcessName) : Bytes :=
  name.text.flatMap escapeByte

def idLine (key : String) (first : UserId) (others : List UserId) : Bytes :=
  bytes key ++ 9 :: (first.text ++ others.flatMap fun id => 9 :: id.text)

def joinLines (lines : List Bytes) : Bytes :=
  lines.flatMap (· ++ [10])

/-- The status file of a process, without its name: some lines, among them one `Uid:` and
one `Gid:` line, within the first 4000 bytes, and whatever follows them. -/
structure StatusLayout where
  uid : UserId
  euid : UserId
  moreUids : List UserId
  gid : UserId
  moreGids : List UserId
  lines : List Bytes
  uidBefore : List Bytes
  uidAfter : List Bytes
  gidBefore : List Bytes
  gidAfter : List Bytes
  tail : Bytes
  uidSplit : lines = uidBefore ++ idLine "Uid:" uid (euid :: moreUids) :: uidAfter
  gidSplit : lines = gidBefore ++ idLine "Gid:" gid moreGids :: gidAfter
  uidFirst : ∀ line ∈ uidBefore, strstr (bytes "Uid:") line = none
  gidFirst : ∀ line ∈ gidBefore, strstr (bytes "Gid:") line = none
  visible : ∀ line ∈ lines, 0 ∉ line
  fits : (joinLines lines).length ≤ 4000

def nameLine (name : ProcessName) : Bytes :=
  bytes "Name:\t" ++ name.escaped

def statusText (name : ProcessName) (layout : StatusLayout) : Bytes :=
  nameLine name ++ 10 :: (joinLines layout.lines ++ layout.tail)

def tailSeen (name : ProcessName) (layout : StatusLayout) : Bytes :=
  cString (layout.tail.take (4095 - (nameLine name).length - 1 - (joinLines layout.lines).length))

def behindName (name : ProcessName) (layout : StatusLayout) : Bytes :=
  joinLines layout.lines ++ tailSeen name layout

/-! The buffer that the parser searches. -/

theorem escapeByte_visible {byte : UInt8} (visible : byte ≠ 0) : 0 ∉ escapeByte byte := by
  simp only [escapeByte]
  split
  · decide
  · split
    · decide
    · simp [visible.symm]

theorem escapeByte_length (byte : UInt8) : (escapeByte byte).length ≤ 2 := by
  simp only [escapeByte]
  split
  · simp
  · split <;> simp

theorem escaped_visible (name : ProcessName) : 0 ∉ name.escaped := by
  intro member
  obtain ⟨byte, inName, found⟩ := List.mem_flatMap.mp member
  have visible : byte ≠ 0 := fun zero => name.visible (zero ▸ inName)
  exact escapeByte_visible visible found

theorem escaped_length (name : ProcessName) : name.escaped.length ≤ 30 := by
  have twice (text : Bytes) : (text.flatMap escapeByte).length ≤ 2 * text.length := by
    induction text with
    | nil => simp
    | cons byte rest ih =>
        have first := escapeByte_length byte
        simp only [List.flatMap_cons, List.length_append, List.length_cons]
        omega
  exact le_trans (twice name.text) (by have short := name.short; omega)

theorem statusText_seen (name : ProcessName) (layout : StatusLayout) :
    cString ((statusText name layout).take 4095) =
      nameLine name ++ 10 :: behindName name layout := by
  have lengthName : (nameLine name).length = 6 + name.escaped.length := by
    simp [nameLine]
    rfl
  have short := escaped_length name
  have fits := layout.fits
  have linesVisible : 0 ∉ joinLines layout.lines := by
    intro member
    obtain ⟨line, inLines, found⟩ := List.mem_flatMap.mp member
    rcases List.mem_append.mp found with inside | newline
    · exact layout.visible line inLines inside
    · simp at newline
  have nameVisible : 0 ∉ nameLine name ++ [10] := by
    simp only [nameLine, List.mem_append, not_or]
    exact ⟨⟨by decide, escaped_visible name⟩, by decide⟩
  have whole : statusText name layout =
      (nameLine name ++ [10]) ++ (joinLines layout.lines ++ layout.tail) := by
    simp [statusText]
  have cut : (statusText name layout).take 4095 =
      (nameLine name ++ [10]) ++ (joinLines layout.lines ++
        layout.tail.take (4095 - (nameLine name).length - 1 - (joinLines layout.lines).length)) := by
    rw [whole, List.take_append, List.take_of_length_le (by simp; omega), List.take_append,
      List.take_of_length_le (by simp; omega)]
    simp [Nat.sub_sub]
  rw [cut, cString_append nameVisible, cString_append linesVisible, behindName, tailSeen]
  simp

/-! Where the keys are found. -/

theorem strstr_lines (needle : Bytes) (absent : 10 ∉ needle) (nonempty : needle ≠ [])
    {before : List Bytes} (elsewhere : ∀ line ∈ before, strstr needle line = none)
    (line : Bytes) (after : List Bytes) (rest : Bytes) :
    strstr needle (joinLines (before ++ (needle ++ line) :: after) ++ rest) =
      some (needle ++ line ++ 10 :: (joinLines after ++ rest)) := by
  induction before with
  | nil =>
      have start := strstr_self nonempty (line ++ 10 :: (joinLines after ++ rest))
      simpa [joinLines] using start
  | cons first before ih =>
      have unfolded : joinLines (first :: before ++ (needle ++ line) :: after) ++ rest =
          first ++ 10 :: (joinLines (before ++ (needle ++ line) :: after) ++ rest) := by
        simp [joinLines]
      rw [unfolded, strstr_separated absent nonempty, elsewhere first List.mem_cons_self]
      exact ih (fun other member => elsewhere other (List.mem_cons_of_mem _ member))

theorem strstr_seen {needle : Bytes} (noNewline : 10 ∉ needle) (noTab : 9 ∉ needle)
    (nonempty : needle ≠ []) (notName : strstr needle (bytes "Name:") = none)
    (name : ProcessName) (body : Bytes) :
    strstr needle (nameLine name ++ 10 :: body) =
      match strstr needle name.escaped with
      | some found => some (found ++ 10 :: body)
      | none => strstr needle body := by
  have label : nameLine name = bytes "Name:" ++ 9 :: name.escaped := rfl
  rw [strstr_separated noNewline nonempty, label, strstr_separated noTab nonempty]
  cases strstr needle name.escaped with
  | none => simp only [notName]
  | some found => simp only [notName]

theorem sscanf_id (id : UserId) {next : UInt8} (stop : isdigit next = false)
    (rest : Bytes) (format : List Directive) :
    sscanf (.space :: .int .int :: format) (9 :: (id.text ++ next :: rest)) =
      id.stored :: sscanf format (next :: rest) := by
  have tab : skipSpace (9 :: (id.text ++ next :: rest)) = id.text ++ next :: rest := by
    cases split : id.text with
    | nil => exact absurd split id.nonempty
    | cons first digits =>
        have digit : isdigit first = true := id.digits first (by simp [split])
        have skipped := skipSpace_cons (isspace_digit digit) (digits ++ next :: rest)
        simpa [skipSpace, isspace] using skipped
  have value : convert .int false (digitsValue id.text) = id.stored := by
    have small := id.small
    have inRange : clampLong (digitsValue id.text) = digitsValue id.text := by
      simp only [clampLong]
      omega
    simp [convert, inRange, UserId.stored]
  simp only [sscanf, tab, scanInt_digits .int id.nonempty id.digits (noDigit_cons stop _), value]

/-! The parsed credentials. -/

theorem parseProcPidStatus_stores {files : ProcFiles} {buf uidFound gidFound : Bytes}
    (read : fileReadProc 4096 files.status = some buf)
    (uidAt : strstr (bytes "Uid:") (cString buf) = some uidFound)
    (gidAt : strstr (bytes "Gid:") (cString buf) = some gidFound) (data : ProcData)
    (uid euid gid : Int) :
    parseProcPidStatus files data = (true, { data with cred := ⟨uid, euid, gid⟩ }) ↔
      sscanf uidFormat (uidFound.drop 4) = [uid, euid] ∧
        sscanf gidFormat (gidFound.drop 4) = [gid] := by
  have fewUids : (sscanf uidFormat (uidFound.drop 4)).length ≤ 2 := sscanf_length _ _
  have fewGids : (sscanf gidFormat (gidFound.drop 4)).length ≤ 1 := sscanf_length _ _
  have uidKey (data : ProcData) : scanKey "Uid:" uidFormat uidArguments (cString buf) data =
      ((sscanf uidFormat (uidFound.drop 4)).length == 2,
        assign uidArguments (sscanf uidFormat (uidFound.drop 4)) data) := by
    simp only [scanKey, scanAfter, uidAt]
    rfl
  have gidKey (data : ProcData) : scanKey "Gid:" gidFormat gidArguments (cString buf) data =
      ((sscanf gidFormat (gidFound.drop 4)).length == 1,
        assign gidArguments (sscanf gidFormat (gidFound.drop 4)) data) := by
    simp only [scanKey, scanAfter, gidAt]
    rfl
  rw [parseProcPidStatus_keys read]
  simp only [andThen, uidKey, gidKey]
  generalize sscanf uidFormat (uidFound.drop 4) = uids at fewUids ⊢
  generalize sscanf gidFormat (gidFound.drop 4) = gids at fewGids ⊢
  rcases uids with _ | ⟨firstUid, _ | ⟨secondUid, _ | ⟨thirdUid, moreUids⟩⟩⟩
  · simp
  · simp
  · rcases gids with _ | ⟨firstGid, _ | ⟨secondGid, moreGids⟩⟩
    · simp
    · simp [uidArguments, gidArguments, assign, and_assoc]
    · simp at fewGids
  · simp at fewUids

/-- If the name holds the key, what follows its first occurrence there reads the same. -/
def Harmless (key : String) (format : List Directive) (expected : List Int) (name : ProcessName)
    (body : Bytes) : Prop :=
  ∀ found, strstr (bytes key) name.escaped = some found →
    sscanf format ((found ++ 10 :: body).drop 4) = expected

theorem scan_seen_iff {key : String} (noNewline : 10 ∉ bytes key) (noTab : 9 ∉ bytes key)
    (nonempty : bytes key ≠ []) (notName : strstr (bytes key) (bytes "Name:") = none)
    (format : List Directive) (expected : List Int) (name : ProcessName) {body line : Bytes}
    (ownLine : strstr (bytes key) body = some line)
    (own : sscanf format (line.drop 4) = expected) :
    ∃ found, strstr (bytes key) (nameLine name ++ 10 :: body) = some found ∧
      (sscanf format (found.drop 4) = expected ↔ Harmless key format expected name body) := by
  rw [strstr_seen noNewline noTab nonempty notName]
  cases inName : strstr (bytes key) name.escaped with
  | some found => exact ⟨_, rfl, by simp [Harmless, inName]⟩
  | none =>
      refine ⟨line, ownLine, iff_of_true own ?_⟩
      intro found impossible
      rw [inName] at impossible
      cases impossible

theorem ids_end (others : List UserId) (rest : Bytes) :
    ∃ next tail, (others.flatMap fun id => 9 :: id.text) ++ 10 :: rest = next :: tail ∧
      isdigit next = false := by
  cases others with
  | nil => exact ⟨10, rest, rfl, rfl⟩
  | cons id others => exact ⟨9, _, rfl, rfl⟩

theorem uidLine_own (name : ProcessName) (layout : StatusLayout) :
    ∃ line, strstr (bytes "Uid:") (behindName name layout) = some line ∧
      sscanf uidFormat (line.drop 4) = [layout.uid.stored, layout.euid.stored] := by
  have located : strstr (bytes "Uid:") (behindName name layout) =
      some (bytes "Uid:" ++ 9 :: (layout.uid.text ++
        (layout.euid :: layout.moreUids).flatMap fun id => 9 :: id.text) ++
          10 :: (joinLines layout.uidAfter ++ tailSeen name layout)) := by
    rw [behindName, layout.uidSplit]
    exact strstr_lines (bytes "Uid:") (by decide) (by decide) layout.uidFirst _ _ _
  refine ⟨_, located, ?_⟩
  generalize joinLines layout.uidAfter ++ tailSeen name layout = rest
  obtain ⟨next, tail, ends, stop⟩ := ids_end layout.moreUids rest
  have behind (text : Bytes) : (bytes "Uid:" ++ text).drop 4 = text := rfl
  have behindKey : (bytes "Uid:" ++ 9 :: (layout.uid.text ++
      (layout.euid :: layout.moreUids).flatMap fun id => 9 :: id.text) ++ 10 :: rest).drop 4 =
        9 :: (layout.uid.text ++ 9 :: (layout.euid.text ++ next :: tail)) := by
    rw [List.append_assoc, behind, ← ends]
    simp
  rw [behindKey, uidFormat, sscanf_id layout.uid rfl, sscanf_id layout.euid stop]
  rfl

theorem gidLine_own (name : ProcessName) (layout : StatusLayout) :
    ∃ line, strstr (bytes "Gid:") (behindName name layout) = some line ∧
      sscanf gidFormat (line.drop 4) = [layout.gid.stored] := by
  have located : strstr (bytes "Gid:") (behindName name layout) =
      some (bytes "Gid:" ++ 9 :: (layout.gid.text ++
        layout.moreGids.flatMap fun id => 9 :: id.text) ++
          10 :: (joinLines layout.gidAfter ++ tailSeen name layout)) := by
    rw [behindName, layout.gidSplit]
    exact strstr_lines (bytes "Gid:") (by decide) (by decide) layout.gidFirst _ _ _
  refine ⟨_, located, ?_⟩
  generalize joinLines layout.gidAfter ++ tailSeen name layout = rest
  obtain ⟨next, tail, ends, stop⟩ := ids_end layout.moreGids rest
  have behind (text : Bytes) : (bytes "Gid:" ++ text).drop 4 = text := rfl
  have behindKey : (bytes "Gid:" ++ 9 :: (layout.gid.text ++
      layout.moreGids.flatMap fun id => 9 :: id.text) ++ 10 :: rest).drop 4 =
        9 :: (layout.gid.text ++ next :: tail) := by
    rw [List.append_assoc, behind, ← ends]
    simp
  rw [behindKey, gidFormat, sscanf_id layout.gid stop]
  rfl

/-- The parser stores the credentials of the file if and only if neither key stands in the
name, or what follows it there reads like the real ids. -/
theorem parseProcPidStatus_credentials_iff (files : ProcFiles) (name : ProcessName)
    (layout : StatusLayout) (data : ProcData) :
    parseProcPidStatus { files with status := .content (statusText name layout) } data =
        (true, { data with
          cred := ⟨layout.uid.stored, layout.euid.stored, layout.gid.stored⟩ }) ↔
      Harmless "Uid:" uidFormat [layout.uid.stored, layout.euid.stored] name
        (behindName name layout) ∧
      Harmless "Gid:" gidFormat [layout.gid.stored] name (behindName name layout) := by
  have read : fileReadProc 4096 (.content (statusText name layout)) =
      some ((statusText name layout).take 4095) := rfl
  obtain ⟨uidLine, uidOwn, uidValues⟩ := uidLine_own name layout
  obtain ⟨gidLine, gidOwn, gidValues⟩ := gidLine_own name layout
  obtain ⟨uidFound, uidAt, uidIff⟩ := scan_seen_iff (by decide) (by decide) (by decide) (by decide)
    uidFormat _ name uidOwn uidValues
  obtain ⟨gidFound, gidAt, gidIff⟩ := scan_seen_iff (by decide) (by decide) (by decide) (by decide)
    gidFormat _ name gidOwn gidValues
  rw [← statusText_seen] at uidAt gidAt
  rw [parseProcPidStatus_stores read uidAt gidAt, uidIff, gidIff]

def sampleId : UserId where
  text := bytes "1000"
  nonempty := by decide
  digits := List.all_eq_true.mp (by decide)
  small := by decide

def sampleLayout : StatusLayout where
  uid := sampleId
  euid := sampleId
  moreUids := [sampleId, sampleId]
  gid := sampleId
  moreGids := [sampleId, sampleId, sampleId]
  lines := [bytes "Umask:\t0022", idLine "Uid:" sampleId [sampleId, sampleId, sampleId],
    idLine "Gid:" sampleId [sampleId, sampleId, sampleId]]
  uidBefore := [bytes "Umask:\t0022"]
  uidAfter := [idLine "Gid:" sampleId [sampleId, sampleId, sampleId]]
  gidBefore := [bytes "Umask:\t0022", idLine "Uid:" sampleId [sampleId, sampleId, sampleId]]
  gidAfter := []
  tail := bytes "FDSize:\t64\n"
  uidSplit := rfl
  gidSplit := rfl
  uidFirst := by decide
  gidFirst := by decide
  visible := by decide
  fits := by decide

def forgedName : ProcessName where
  text := bytes "Uid: 0 0"
  short := by decide
  visible := by decide

def plainName : ProcessName where
  text := bytes "sh"
  short := by decide
  visible := by decide

theorem parseProcPidStatus_forged :
    parseProcPidStatus { initProcess.files with
        status := .content (statusText forgedName sampleLayout) } {} =
      (true, { cred := ⟨0, 0, 1000⟩ }) ∧
    parseProcPidStatus { initProcess.files with
        status := .content (statusText plainName sampleLayout) } {} =
      (true, { cred := ⟨1000, 1000, 1000⟩ }) ∧
    (sampleLayout.uid.stored, sampleLayout.euid.stored, sampleLayout.gid.stored) =
      (1000, 1000, 1000) :=
  ⟨by decide +kernel, by decide +kernel, by decide +kernel⟩

end SimpleProcessMonitor
