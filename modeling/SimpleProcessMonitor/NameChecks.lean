import SimpleProcessMonitor.Library.Loop
import SimpleProcessMonitor.ScanChecks
import SimpleProcessMonitor.TrimChecks

/-!
The command line that the scan stores: the shared string buffer simulates the byte string
of the abstract scan, and that is the content of the cmdline file alone.
-/

namespace SimpleProcessMonitor

open CString StringBuffer

/-- The arguments, each ended by a NUL, as one line. -/
def spaced (content : Bytes) : Bytes :=
  content.map fun byte => if byte = 0 then 32 else byte

theorem appendCmdlineByte_spaced (name : Bytes) (byte : UInt8) :
    appendCmdlineByte name byte = name ++ spaced [byte] := by
  by_cases zero : byte = 0 <;> simp [appendCmdlineByte, spaced, zero]

theorem foldl_appendCmdlineByte (content name : Bytes) :
    content.foldl appendCmdlineByte name = name ++ spaced content := by
  induction content generalizing name with
  | nil => simp [spaced]
  | cons byte content ih =>
      rw [List.foldl_cons, ih, appendCmdlineByte_spaced, List.append_assoc]
      rfl

theorem readCmdline_spaced (content name : Bytes) :
    readCmdline content name = name ++ spaced content := by
  have whole : (chunks (bufferStrlen - 1) content.length content).flatten = content :=
    chunks_flatten (by decide) (Nat.le_refl _)
  rw [readCmdline, ← List.foldl_flatten, whole, foldl_appendCmdlineByte]

theorem statName_visible {stat : FileRead} {procname : Bytes} (found : statName stat = some procname) :
    0 ∉ procname := by
  unfold statName at found
  split at found
  · cases found
  · rename_i buffer _
    split at found
    · cases found
    · split at found
      · cases found
      · rename_i start search
        intro member
        rw [← Option.some.inj found] at member
        have inLine := (strchr_suffix search).subset (List.mem_of_mem_drop member)
        exact cString_visible buffer (List.mem_of_mem_take inLine)

section Simulation

variable (memory : RawMemory) (fread : Fread)

theorem appendByte_represents {name : StringBuffer} {text : Bytes} (represents : name.Represents text)
    (byte : UInt8) : (appendByte memory name byte).Represents (text ++ spaced [byte]) := by
  by_cases zero : byte = 0
  · simpa [appendByte, spaced, zero] using represents.append memory (by decide : (0 : UInt8) ∉ [32])
  · have visible : 0 ∉ [byte] := by simpa using Ne.symm zero
    simpa [appendByte, spaced, zero] using represents.append memory visible

theorem foldl_appendByte_represents (content : Bytes) {name : StringBuffer} {text : Bytes}
    (represents : name.Represents text) :
    (content.foldl (appendByte memory) name).Represents (text ++ spaced content) := by
  induction content generalizing name text with
  | nil => simpa [spaced] using represents
  | cons byte content ih =>
      have rest := ih (appendByte_represents memory represents byte)
      rwa [List.append_assoc] at rest

theorem appendReads_represents (reads : List Bytes) {name : StringBuffer} {text : Bytes}
    (represents : name.Represents text) :
    (appendReads memory reads name).Represents (text ++ spaced reads.flatten) := by
  rw [appendReads, ← List.foldl_flatten]
  exact foldl_appendByte_represents memory reads.flatten represents

structure Simulates (shared : SharedProc) (proc : ProcT) : Prop where
  name : shared.name.Represents proc.name
  data : shared.data = proc.data

theorem Simulates.view {shared : SharedProc} {proc : ProcT} (simulates : Simulates shared proc) :
    shared.view = proc := by
  rw [SharedProc.view, simulates.name.toString, simulates.data]

def SameOutcome (shared : Bool × SharedProc) (plain : Bool × ProcT) : Prop :=
  shared.1 = plain.1 ∧ Simulates shared.2 plain.2

def takeStatName (files : ProcFiles) (proc : ProcT) : Bool × ProcT :=
  if proc.name = [] then
    match statName files.statForName with
    | none => (false, proc)
    | some procname => (true, { proc with name := proc.name ++ procname })
  else (true, proc)

theorem appendStatName_simulates (files : ProcFiles) {shared : SharedProc} {proc : ProcT}
    (simulates : Simulates shared proc) :
    SameOutcome (appendStatName memory files shared) (takeStatName files proc) := by
  have empty : shared.name.used = 0 ↔ proc.name = [] := by
    rw [simulates.name.used, List.length_eq_zero_iff]
  unfold appendStatName takeStatName
  by_cases unnamed : proc.name = []
  · rw [if_pos (empty.mpr unnamed), if_pos unnamed]
    cases found : statName files.statForName with
    | none => exact ⟨rfl, simulates⟩
    | some procname =>
        exact ⟨rfl, simulates.name.append memory (statName_visible found), simulates.data⟩
  · rw [if_neg (fun zero => unnamed (empty.mp zero)), if_neg unnamed]
    exact ⟨rfl, simulates⟩

theorem parseProcPidCmdlineShared_simulates (files : ProcFiles) {shared : SharedProc} {proc : ProcT}
    (simulates : Simulates shared proc) :
    SameOutcome (parseProcPidCmdlineShared memory fread files shared)
      (parseProcPidCmdline files proc) := by
  have plain : parseProcPidCmdline files proc =
      if proc.data.tid = -1 then
        match files.cmdline with
        | none => (false, proc)
        | some content =>
            takeStatName files { proc with name := CString.trim (readCmdline content proc.name) }
      else takeStatName files proc := rfl
  rw [plain, parseProcPidCmdlineShared, simulates.data]
  split
  · cases files.cmdline with
    | none => exact ⟨rfl, simulates⟩
    | some content =>
        refine appendStatName_simulates memory files ⟨?_, rfl⟩
        have read := appendReads_represents memory (fread.reads content) simulates.name
        rw [fread.whole, ← readCmdline_spaced] at read
        exact read.trim
  · exact appendStatName_simulates memory files simulates

theorem parseMandatoryShared_simulates (sys : Sys) (files : ProcFiles) {shared : SharedProc}
    {proc : ProcT} (simulates : Simulates shared proc) :
    SameOutcome (parseMandatoryShared memory fread sys files shared)
      (parseMandatory sys files proc) := by
  have kept (data : ProcData) : Simulates { shared with data := data } { proc with data := data } :=
    ⟨simulates.name, rfl⟩
  unfold parseMandatoryShared parseMandatory
  rw [simulates.data]
  rcases parseProcPidStat files proc.data with ⟨_ | _, data⟩
  · exact ⟨rfl, kept data⟩
  · dsimp only
    rcases parseProcPidStatus files data with ⟨_ | _, data⟩
    · exact ⟨rfl, kept data⟩
    · dsimp only
      rcases parseProcPidIo sys.hasIOStatistics files data with ⟨_ | _, data⟩
      · exact ⟨rfl, kept data⟩
      · exact parseProcPidCmdlineShared_simulates memory fread files (kept data)

theorem scanEntryShared_simulates (sys : Sys) (starttime pid : Int) (entry : GlobEntry)
    {shared : SharedProc} {proc : ProcT} (simulates : Simulates shared proc) :
    (scanEntryShared memory fread sys starttime pid entry shared).1 =
        (scanEntry sys starttime pid entry proc).1 ∧
      Simulates (scanEntryShared memory fread sys starttime pid entry shared).2
        (scanEntry sys starttime pid entry proc).2 := by
  have started : Simulates { shared with data := setIds pid entry.path shared.data }
      { proc with data := setIds pid entry.path proc.data } :=
    ⟨simulates.name, by rw [simulates.data]⟩
  have parsed := parseMandatoryShared_simulates memory fread sys entry.files started
  unfold scanEntryShared scanEntry
  generalize parseMandatoryShared memory fread sys entry.files
    { shared with data := setIds pid entry.path shared.data } = sharedParse at parsed ⊢
  generalize parseMandatory sys entry.files
    { proc with data := setIds pid entry.path proc.data } = plainParse at parsed ⊢
  obtain ⟨flag, shared⟩ := sharedParse
  obtain ⟨plainFlag, proc⟩ := plainParse
  obtain ⟨same, related⟩ := parsed
  simp only at same related
  subst plainFlag
  cases flag with
  | false => exact ⟨rfl, related⟩
  | true => exact ⟨by simp only [related.view], related.name.clear, rfl⟩

theorem sharedInitial_simulates : Simulates (sharedInitial memory) {} :=
  ⟨ctor_represents memory (by decide), rfl⟩

theorem scanEntriesShared_eq (sys : Sys) (starttime pid : Int) (entries : List GlobEntry)
    {shared : SharedProc} {proc : ProcT} (simulates : Simulates shared proc) :
    scanEntriesShared memory fread sys starttime pid entries shared =
      scanEntries sys starttime pid entries proc := by
  induction entries generalizing shared proc with
  | nil => rfl
  | cons entry rest ih =>
      obtain ⟨record, next⟩ :=
        scanEntryShared_simulates memory fread sys starttime pid entry simulates
      rw [scanEntriesShared, scanEntries, record, ih next]

end Simulation

/-! The command line of one process. -/

/-- `name` is the command line of a process with these files: the content of its cmdline
file on one line, or the name in its stat file if that line is blank. -/
def CommandLine (files : ProcFiles) (name : Bytes) : Prop :=
  ∃ content, files.cmdline = some content ∧
    (if CString.trim (spaced content) = [] then statName files.statForName
      else some (CString.trim (spaced content))) = some name

theorem parseProcPidCmdline_commandLine {files : ProcFiles} {proc named : ProcT}
    (unnamed : proc.name = []) (process : proc.data.tid = -1)
    (parsed : parseProcPidCmdline files proc = (true, named)) : CommandLine files named.name := by
  obtain ⟨name, data⟩ := proc
  simp only at unnamed process
  subst name
  cases opened : files.cmdline with
  | none => simp [parseProcPidCmdline, process, opened] at parsed
  | some content =>
      refine ⟨content, opened, ?_⟩
      have line : readCmdline content [] = spaced content := by
        rw [readCmdline_spaced, List.nil_append]
      simp only [parseProcPidCmdline, process, opened, line, if_true] at parsed
      split at parsed
      · rename_i blankLine
        rw [if_pos blankLine]
        cases found : statName files.statForName with
        | none => simp [found] at parsed
        | some procname =>
            simp only [found, blankLine, List.nil_append, Prod.mk.injEq, true_and] at parsed
            rw [← parsed]
      · rename_i visibleLine
        rw [if_neg visibleLine]
        simp only [Prod.mk.injEq, true_and] at parsed
        rw [← parsed]

theorem scanEntry_commandLine {sys : Sys} {starttime : Int} {entry : GlobEntry} {proc : ProcT}
    (unnamed : proc.name = []) {record : ProcessRecord}
    (stored : (scanEntry sys starttime allProcesses entry proc).1 = some record) :
    ∃ name, record.cmdline = some name ∧ CommandLine entry.files name := by
  have tid (data : ProcData) : (setIds allProcesses entry.path data).tid = -1 := by simp [setIds]
  unfold scanEntry at stored
  split at stored
  · cases stored
  · rename_i named parsed
    rw [← Option.some.inj stored]
    refine ⟨named.name, rfl, ?_⟩
    rw [parseMandatory_eq] at parsed
    have kept := mandatoryData_kept sys entry.files (setIds allProcesses entry.path proc.data)
    dsimp only at parsed
    generalize mandatoryData sys entry.files (setIds allProcesses entry.path proc.data) = fields
      at parsed kept
    obtain ⟨_ | _, data⟩ := fields
    · cases parsed
    · have process : data.tid = -1 := (congrArg (·.tid) kept).trans (tid proc.data)
      have stillUnnamed : ({ proc with data := data } : ProcT).name = [] := unnamed
      exact parseProcPidCmdline_commandLine stillUnnamed process parsed

section Run

variable (memory : RawMemory) (fread : Fread) (sys : Sys) (starttime : Int)

def beforeIteration (before : List GlobEntry) : SharedProc :=
  Loop.run (scanStepShared memory fread sys starttime allProcesses) (sharedInitial memory) before

theorem beforeIteration_simulates (before : List GlobEntry) :
    ∃ proc : ProcT, proc.name = [] ∧
      Simulates (beforeIteration memory fread sys starttime before) proc := by
  let step (proc : ProcT) (entry : GlobEntry) := (scanEntry sys starttime allProcesses entry proc).2
  have unnamed : ∃ left, Carried left (Loop.run step {} before) := by
    refine Loop.run_invariant (fun proc => ∃ left, Carried left proc) ⟨_, carried_initial⟩ ?_ before
    rintro proc entry ⟨left, carried⟩
    exact ⟨_, (scanEntry_carried sys starttime allProcesses entry carried).1⟩
  obtain ⟨left, carried⟩ := unnamed
  refine ⟨Loop.run step {} before, carried.name, ?_⟩
  exact Loop.run_simulates Simulates (sharedInitial_simulates memory) (fun shared proc entry related =>
    (scanEntryShared_simulates memory fread sys starttime allProcesses entry related).2) before

/-! The members `used` and `length` are of type `int`; these bounds say how long the files
may be for the numbers here to be theirs. -/

theorem statName_short {stat : FileRead} {procname : Bytes} (found : statName stat = some procname) :
    procname.length < 8192 := by
  unfold statName at found
  split at found
  · cases found
  · rename_i buffer read
    have short : buffer.length ≤ 8191 := by
      cases stat with
      | openFailed => cases read
      | readFailed => cases read
      | content text =>
          rw [← Option.some.inj read]
          exact List.length_take_le _ _
    have visible : (cString buffer).length ≤ buffer.length := (List.takeWhile_prefix _).length_le
    split at found
    · cases found
    · split at found
      · cases found
      · rename_i start search
        have inLine := (strchr_suffix search).length_le
        rw [List.length_take] at inLine
        rw [← Option.some.inj found, List.length_drop]
        omega

theorem foldl_appendByte_length_le (content : Bytes) {name : StringBuffer} {text : Bytes}
    (represents : name.Represents text) :
    (content.foldl (appendByte memory) name).length ≤
      max name.length (text.length + content.length + 1 + bufferStrlen) := by
  induction content generalizing name text with
  | nil => exact Nat.le_max_left _ _
  | cons byte content ih =>
      have step : (appendByte memory name byte).length ≤ max name.length (name.used + 2 + bufferStrlen) := by
        unfold appendByte
        split <;> exact append_length_le memory name _
      have rest := ih (appendByte_represents memory represents byte)
      have used := represents.used
      simp only [List.length_append, spaced, List.map_cons, List.map_nil, List.length_singleton] at rest
      simp only [List.foldl_cons, List.length_cons]
      omega

/-- A process of which no text needs a buffer of more than `limit` bytes. -/
structure WithinLimit (limit : Nat) (files : ProcFiles) : Prop where
  statName : 2 * 8192 + bufferStrlen ≤ limit
  cmdline : ∀ content, files.cmdline = some content → content.length + 1 + bufferStrlen ≤ limit

theorem appendStatName_length_le {limit : Nat} {files : ProcFiles} (within : WithinLimit limit files)
    {shared : SharedProc} (bounded : shared.name.length ≤ limit) :
    (appendStatName memory files shared).2.name.length ≤ limit := by
  unfold appendStatName
  split
  · rename_i empty
    cases found : statName files.statForName with
    | none => exact bounded
    | some procname =>
        have grown := append_length_le memory shared.name procname
        have short := statName_short found
        have enough := within.statName
        dsimp only
        omega
  · exact bounded

theorem parseProcPidCmdlineShared_length_le {limit : Nat} {files : ProcFiles}
    (within : WithinLimit limit files) {shared : SharedProc} (represents : shared.name.Represents [])
    (bounded : shared.name.length ≤ limit) :
    (parseProcPidCmdlineShared memory fread files shared).2.name.length ≤ limit := by
  unfold parseProcPidCmdlineShared
  split
  · cases opened : files.cmdline with
    | none => exact bounded
    | some content =>
        refine appendStatName_length_le memory within ?_
        have read := foldl_appendByte_length_le memory (fread.reads content).flatten represents
        have enough := within.cmdline content opened
        rw [fread.whole, List.length_nil] at read
        rw [trim_length, appendReads, ← List.foldl_flatten, fread.whole]
        omega
  · exact appendStatName_length_le memory within bounded

theorem scanEntryShared_length_le {limit : Nat} {entry : GlobEntry}
    (within : WithinLimit limit entry.files) {shared : SharedProc}
    (represents : shared.name.Represents []) (bounded : shared.name.length ≤ limit) (pid : Int) :
    (scanEntryShared memory fread sys starttime pid entry shared).2.name.length ≤ limit := by
  have parsed (data : ProcData) : (parseMandatoryShared memory fread sys entry.files
      { shared with data := data }).2.name.length ≤ limit := by
    unfold parseMandatoryShared
    rcases parseProcPidStat entry.files data with ⟨_ | _, data⟩
    · exact bounded
    · dsimp only
      rcases parseProcPidStatus entry.files data with ⟨_ | _, data⟩
      · exact bounded
      · dsimp only
        rcases parseProcPidIo sys.hasIOStatistics entry.files data with ⟨_ | _, data⟩
        · exact bounded
        · exact parseProcPidCmdlineShared_length_le memory fread within represents bounded
  have parsedIds := parsed (setIds pid entry.path shared.data)
  unfold scanEntryShared
  split
  · rename_i shared outcome
    rwa [outcome] at parsedIds
  · rename_i shared outcome
    rwa [outcome] at parsedIds

theorem beforeIteration_length_le {limit : Nat} (initial : 64 ≤ limit) (before : List GlobEntry)
    (within : ∀ entry ∈ before, WithinLimit limit entry.files) :
    (beforeIteration memory fread sys starttime before).name.length ≤ limit := by
  induction before using List.reverseRecOn with
  | nil => exact initial
  | append_singleton before entry ih =>
      obtain ⟨proc, unnamed, related⟩ := beforeIteration_simulates memory fread sys starttime before
      have represents := related.name
      rw [unnamed] at represents
      have bounded := ih fun entry member => within entry (List.mem_append_left _ member)
      rw [beforeIteration, Loop.run_concat]
      exact scanEntryShared_length_le memory fread sys starttime
        (within entry (List.mem_append_right _ List.mem_cons_self)) represents bounded allProcesses

/-- The fields `used` and `length` are `int`: they hold every content of less than 2^31 - 257
bytes, and a longer one ends in a failing `RESIZE`. -/
theorem beforeIteration_int (before : List GlobEntry)
    (short : ∀ entry ∈ before, ∀ content, entry.files.cmdline = some content →
      content.length < 2 ^ 31 - 257) :
    (beforeIteration memory fread sys starttime before).name.length < 2 ^ 31 := by
  have within : ∀ entry ∈ before, WithinLimit (2 ^ 31 - 1) entry.files := by
    refine fun entry member => ⟨by decide, fun content opened => ?_⟩
    have length := short entry member content opened
    change content.length + 1 + 256 ≤ _
    omega
  have bounded := beforeIteration_length_le memory fread sys starttime (by decide) before within
  omega

theorem scan_commandLines (entries : List GlobEntry) :
    scanEntriesShared memory fread sys starttime allProcesses entries (sharedInitial memory) =
      scanEntries sys starttime allProcesses entries {} ∧
    ∀ before entry rest, entries = before ++ entry :: rest →
      (beforeIteration memory fread sys starttime before).name.used = 0 ∧
      (beforeIteration memory fread sys starttime before).name.toString = [] ∧
      ∀ record, (scanEntryShared memory fread sys starttime allProcesses entry
          (beforeIteration memory fread sys starttime before)).1 = some record →
        ∃ name, record.cmdline = some name ∧ CommandLine entry.files name := by
  refine ⟨scanEntriesShared_eq memory fread sys starttime allProcesses entries
    (sharedInitial_simulates memory), ?_⟩
  intro before entry rest _
  obtain ⟨proc, unnamed, related⟩ := beforeIteration_simulates memory fread sys starttime before
  have represents := related.name
  rw [unnamed] at represents
  refine ⟨represents.used, represents.toString, ?_⟩
  intro record stored
  rw [(scanEntryShared_simulates memory fread sys starttime allProcesses entry related).1] at stored
  exact scanEntry_commandLine unnamed stored

end Run

/-- The reads of `fread(buf, 1, sizeof(buf) - 1, f)`. -/
def freadChunks : Fread where
  reads content := chunks (bufferStrlen - 1) content.length content
  whole content := chunks_flatten (by decide) (Nat.le_refl content.length)

def staleMemory : RawMemory := fun _ _ => 170

/-- Its command line has blanks around it and does not fit into one read. -/
def longProcess : GlobEntry where
  path := bytes "/proc/1"
  files := { initProcess.files with
    cmdline := some (bytes "\n sh" ++ 0 :: List.replicate 300 120 ++ [0, 32, 0]) }

theorem scan_commandLines_sample :
    (scanEntriesShared staleMemory freadChunks sampleSys 0 allProcesses [exitedProcess, longProcess]
        (sharedInitial staleMemory)).map (·.cmdline) =
      [some (bytes "sh " ++ List.replicate 300 120)] ∧
    (beforeIteration staleMemory freadChunks sampleSys 0 [exitedProcess]).name.toString = [] := by
  obtain ⟨same, starts⟩ :=
    scan_commandLines staleMemory freadChunks sampleSys 0 [exitedProcess, longProcess]
  refine ⟨?_, (starts [exitedProcess] longProcess [] rfl).2.1⟩
  rw [same]
  decide +kernel

end SimpleProcessMonitor
