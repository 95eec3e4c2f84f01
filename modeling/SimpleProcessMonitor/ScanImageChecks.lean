import SimpleProcessMonitor.ImageChecks

/-!
The scan of what the kernel shows: the names under which the files are opened, the parsers
of one task on its files, and the records of all of them.
-/

namespace SimpleProcessMonitor

open CString Decimal

/-! The names of the files. -/

namespace PositiveInt

variable (id : PositiveInt)

theorem inRange : InRange .int id.value := by
  have positive := id.positive
  have bounded := id.bounded
  change -2 ^ 31 ≤ id.value ∧ id.value < 2 ^ 31
  omega

theorem nonnegative : ¬id.value < 0 := by
  have positive := id.positive
  omega

end PositiveInt

theorem snprintf_fits {size : Nat} {text : Bytes} (fits : text.length < size) :
    snprintf size text = text :=
  List.take_of_length_le (by omega)

namespace ScanMode

variable (mode : ScanMode) (id : PositiveInt)

def ids : ScanMode → PositiveInt → Int × Int
  | .all, id => (id.value, -1)
  | .threads pid, id => (pid.value, id.value)

theorem setIds_directory (data : ProcData) :
    setIds mode.pid (mode.directory id) data =
      { data with pid := (mode.ids id).1, tid := (mode.ids id).2 } := by
  cases mode with
  | all =>
      have behind : (directory .all id).drop 6 = signedDecimal id.value := rfl
      rw [pid, setIds, if_pos rfl, behind, id.atoi_eq]
      rfl
  | threads process =>
      have round := process.taskRound_path id data
      rw [taskRound_eq process.single] at round
      exact (Prod.mk.inj round).2

theorem procFilename_directory {name : Bytes} (short : name.length ≤ 200) :
    procFilename name (mode.ids id).1 (mode.ids id).2 = mode.directory id ++ 47 :: name := by
  have idShort := signedDecimal_short id.inRange
  have proc : (bytes "/proc/").length = 6 := by decide
  have task : (bytes "/task/").length = 6 := by decide
  cases mode with
  | all =>
      have fits : (bytes "/proc/" ++ (signedDecimal id.value ++ 47 :: name)).length < bufferStrlen := by
        simp only [List.length_append, List.length_cons, proc, bufferStrlen]
        omega
      rw [ids, procFilename, if_neg id.nonnegative, if_pos (show (-1 : Int) < 0 by decide),
        snprintf_fits fits, directory, List.append_assoc]
  | threads process =>
      have processShort := signedDecimal_short process.inRange
      have fits : (bytes "/proc/" ++ (signedDecimal process.value ++ (bytes "/task/" ++
          (signedDecimal id.value ++ 47 :: name)))).length < bufferStrlen := by
        simp only [List.length_append, List.length_cons, proc, task, bufferStrlen]
        omega
      rw [ids, procFilename, if_neg process.nonnegative, if_neg id.nonnegative, snprintf_fits fits,
        directory, taskPath]
      simp only [List.append_assoc]

theorem snprintf_processDirectory {size : Nat} (room : 220 ≤ size) {name : Bytes}
    (short : name.length ≤ 200) :
    snprintf size (bytes "/proc/" ++ (signedDecimal (mode.ids id).1 ++ name)) =
      mode.processDirectory id ++ name := by
  have proc : (bytes "/proc/").length = 6 := by decide
  have processShort : (signedDecimal (mode.ids id).1).length ≤ 11 := by
    cases mode with
    | all => exact signedDecimal_short id.inRange
    | threads process => exact signedDecimal_short process.inRange
  have fits : (bytes "/proc/" ++ (signedDecimal (mode.ids id).1 ++ name)).length < size := by
    simp only [List.length_append, proc]
    omega
  rw [snprintf_fits fits]
  cases mode <;> simp only [processDirectory, ids, List.append_assoc]

end ScanMode

theorem FileRead.Unreadable.unread {file : FileRead} (unreadable : file.Unreadable) (bufSize : Nat) :
    fileReadProc bufSize file = none := by
  rcases unreadable with rfl | rfl
  · rfl
  · rfl

theorem parseProcPidStat_unread {files : ProcFiles} (unreadable : files.stat.Unreadable)
    (data : ProcData) : parseProcPidStat files data = (false, data) := by
  rw [parseProcPidStat, unreadable.unread]

theorem parseProcPidStatus_unread {files : ProcFiles} (unreadable : files.status.Unreadable)
    (data : ProcData) : parseProcPidStatus files data = (false, data) := by
  rw [parseProcPidStatus, unreadable.unread]

theorem statName_unread {stat : FileRead} (unreadable : stat.Unreadable) : statName stat = none := by
  rw [statName, unreadable.unread]

namespace TaskImage

variable {image : TaskImage} {mode : ScanMode} {id : PositiveInt} {visit : Visit} {files : ProcFiles}

/-- What one round of the scan reads of a task. -/
structure ReadFrom (image : TaskImage) (visit : Visit) (files : ProcFiles) : Prop where
  stat : files.stat = .content image.line.render
  status : files.status = .content (statusText image.name image.status)
  io : files.io.Gives (image.io.map fun io => rowsText io.rows)
  cmdline : files.cmdline = some image.cmdline
  again : files.statForName = .content image.again.render
  descriptors : dirGives files.fd image.descriptors
  limits : streamGives files.limits (image.limits.map Limits.text)
  attrCurrent : files.attrCurrent = image.attrCurrent
  uptimeMilli : files.uptimeMilli = visit.uptimeMilli
  readMilli : files.readMilli = visit.readMilli

theorem Shown.readFrom (shown : image.Shown mode id visit) :
    image.ReadFrom visit (visit.entry mode.pid (mode.directory id)).files := by
  have file {name : String} (short : (bytes name).length ≤ 200) :
      procFilename (bytes name) (mode.ids id).1 (mode.ids id).2 =
        mode.directory id ++ 47 :: bytes name := mode.procFilename_directory id short
  have process {size : Nat} (room : 220 ≤ size) (name : String) (short : (bytes name).length ≤ 200) :=
    mode.snprintf_processDirectory id room short
  have names := mode.setIds_directory id {}
  rw [Visit.entry, names]
  unfold Visit.files
  dsimp only
  rw [file (by decide), file (by decide), file (by decide), file (by decide),
    process (by decide) "/cmdline" (by decide), process (by decide) "/fd" (by decide),
    process (by decide) "/limits" (by decide)]
  exact {
    stat := shown.stat
    status := shown.status
    io := shown.io
    cmdline := shown.cmdline
    again := shown.again
    descriptors := shown.descriptors
    limits := shown.limits
    attrCurrent := shown.attrCurrent
    uptimeMilli := rfl
    readMilli := rfl }

/-! The parsers on these files. -/

def withCredentials (image : TaskImage) (data : ProcData) : ProcData :=
  { data with
    itemState := image.line.state.toNat
    ppid := image.line.ppid
    itemUtime := image.line.utime
    itemStime := image.line.stime
    itemCutime := image.line.cutime
    itemCstime := image.line.cstime
    itemThreads := image.line.numThreads
    itemStarttime := image.line.starttime
    itemRss := image.line.rss
    cred := ⟨image.status.uid.stored, image.status.euid.stored, image.status.gid.stored⟩ }

def withMandatory (image : TaskImage) (sys : Sys) (data : ProcData) : ProcData :=
  match sys.hasIOStatistics, image.io with
  | true, some io => { image.withCredentials data with read := io.read, write := io.write }
  | _, _ => image.withCredentials data

theorem parseProcPidStatus_image (read : image.ReadFrom visit files) (unforged : image.Unforged)
    (data : ProcData) :
    parseProcPidStatus files data = (true, { data with
      cred := ⟨image.status.uid.stored, image.status.euid.stored, image.status.gid.stored⟩ }) := by
  have text : fileReadProc 4096 files.status =
      some ((statusText image.name image.status).take 4095) := by
    rw [read.status]
    rfl
  obtain ⟨uidLine, uidOwn, uidValues⟩ := uidLine_own image.name image.status
  obtain ⟨gidLine, gidOwn, gidValues⟩ := gidLine_own image.name image.status
  obtain ⟨uidFound, uidAt, uidIff⟩ := scan_seen_iff (by decide) (by decide) (by decide) (by decide)
    uidFormat _ image.name uidOwn uidValues
  obtain ⟨gidFound, gidAt, gidIff⟩ := scan_seen_iff (by decide) (by decide) (by decide) (by decide)
    gidFormat _ image.name gidOwn gidValues
  rw [← statusText_seen] at uidAt gidAt
  rw [parseProcPidStatus_stores text uidAt gidAt]
  exact ⟨uidIff.mpr unforged.uid, gidIff.mpr unforged.gid⟩

theorem mandatoryData_image (read : image.ReadFrom visit files) (unforged : image.Unforged) (sys : Sys)
    (data : ProcData) : mandatoryData sys files data = (true, image.withMandatory sys data) := by
  have stat := image.line.parseProcPidStat_render read.stat data
  simp only [mandatoryData, andThen, stat, parseProcPidStatus_image read unforged, withMandatory]
  cases statistics : sys.hasIOStatistics with
  | false => rfl
  | true =>
      have io := read.io
      cases readable : image.io with
      | none =>
          rw [readable] at io
          have unread := FileRead.Unreadable.unread io 4096
          rw [parseProcPidIo, if_pos rfl, unread]
          rfl
      | some counters =>
          rw [readable] at io
          have written : files.io = .content (rowsText counters.rows) := io
          rw [counters.parse written]
          rfl

theorem ReadFrom.io_read (read : image.ReadFrom visit files) {sys : Sys}
    (statistics : sys.hasIOStatistics = true) (readable : image.io ≠ none) : ioRead sys files = true := by
  obtain ⟨counters, found⟩ := Option.ne_none_iff_exists'.mp readable
  have gives := read.io
  rw [found] at gives
  have written : files.io = .content (rowsText counters.rows) := gives
  rw [ioRead, statistics, written]
  rfl

theorem parseProcPidCmdline_image (read : image.ReadFrom visit files) (mode : ScanMode)
    (id : PositiveInt) {data : ProcData} (own : data.tid = (mode.ids id).2) :
    parseProcPidCmdline files { data := data } =
      (true, { name := image.command mode, data := data }) := by
  have named : statName files.statForName = some image.again.name := by
    rw [read.again]
    exact image.again.statName_render
  cases mode with
  | all =>
      have process : data.tid = -1 := own
      have joined := readCmdline_spaced image.cmdline []
      by_cases blankLine : trim (spaced image.cmdline) = []
      · simp [parseProcPidCmdline, process, read.cmdline, joined, blankLine, named, command]
      · simp [parseProcPidCmdline, process, read.cmdline, joined, blankLine, command]
  | threads pid =>
      have thread : data.tid ≠ -1 := by
        have positive := id.positive
        change data.tid = id.value at own
        omega
      simp [parseProcPidCmdline, thread, named, command]

/-- What the loop over the lines of the limits leaves. -/
theorem parseProcFdCount_limits (files : ProcFiles) {data : ProcData} {opened : Nat}
    (directory : files.fd = some ⟨opened + 2, false⟩) :
    (parseProcFdCount files data).2 = { data with filedescriptors := ⟨opened,
      (findLimit (fgetsLines bufferStrlen (files.limits.getD []).length (files.limits.getD []))).getD
        data.filedescriptors.limit⟩ } := by
  have basic : ¬opened + 2 < 2 := by omega
  have count : ((opened + 2 : Nat) : Int) - 2 = opened := by omega
  have nothing : findLimit (fgetsLines bufferStrlen 0 []) = none := rfl
  cases limits : files.limits with
  | none => simp [parseProcFdCount, directory, basic, limits, nothing]
  | some text =>
      cases found : findLimit (fgetsLines bufferStrlen text.length text) <;>
        simp [parseProcFdCount, directory, basic, limits, found]

theorem parseProcFdCount_image (read : image.ReadFrom visit files) {data : ProcData}
    (blank : data.filedescriptors = {}) :
    (parseProcFdCount files data).2 =
      { data with filedescriptors := ⟨(image.descriptors.getD 0 : Nat), image.openFiles⟩ } := by
  have gives := read.descriptors
  cases descriptors : image.descriptors with
  | none =>
      rw [descriptors] at gives
      have kept : (parseProcFdCount files data).2 = data := by
        rw [parseProcFdCount]
        cases directory : files.fd with
        | none => rfl
        | some found => rcases gives found directory with failed | basic <;> simp [*]
      have empty : image.openFiles = {} := by rw [openFiles, descriptors]
      rw [kept, empty]
      exact congrArg (fun files => { data with filedescriptors := files }) blank
  | some opened =>
      rw [descriptors] at gives
      have text := read.limits
      rw [parseProcFdCount_limits files gives, openFiles, descriptors, blank]
      cases readable : image.limits with
      | none =>
          rw [readable] at text
          rw [show files.limits.getD [] = [] from text]
          rfl
      | some limits =>
          rw [readable] at text
          rw [show files.limits = some limits.text from text, Option.getD_some, limits.findLimit_lines]
          cases soft : limits.soft 7 <;> cases hard : limits.hard 7 <;>
            simp [soft, hard, Limits.openFiles]

theorem parseProcPidAttrCurrent_image (read : image.ReadFrom visit files) {data : ProcData}
    (blank : data.secattr = []) :
    (parseProcPidAttrCurrent files data).2 = { data with secattr := image.secattr } := by
  rw [parseProcPidAttrCurrent, read.attrCurrent, secattr]
  cases image.attrCurrent with
  | openFailed => exact congrArg (fun text => { data with secattr := text }) blank
  | readFailed => rfl
  | content text => rfl

theorem parseOptional_image (read : image.ReadFrom visit files) (name : Bytes) {data : ProcData}
    (blankFiles : data.filedescriptors = {}) (blankAttr : data.secattr = []) :
    parseOptional files { name := name, data := data } = {
      name := name
      data := { data with
        filedescriptors := ⟨(image.descriptors.getD 0 : Nat), image.openFiles⟩
        secattr := image.secattr } } := by
  rw [parseOptional, parseProcFdCount_image read blankFiles]
  exact congrArg (ProcT.mk name) (@parseProcPidAttrCurrent_image image visit files read { data with
    filedescriptors := ⟨(image.descriptors.getD 0 : Nat), image.openFiles⟩ } blankAttr)

end TaskImage

/-! The whole scan. -/

namespace Listed

variable (sys : Sys) (starttime : Int) (mode : ScanMode) {listed : Listed}

def entry (mode : ScanMode) (listed : Listed) : GlobEntry :=
  listed.visit.entry mode.pid (mode.directory listed.id)

/-- The files of a task, under the names that its directory gives them. -/
theorem entry_files (mode : ScanMode) (listed : Listed) :
    (listed.entry mode).files.stat =
        (listed.visit.procfs .stat).file (mode.directory listed.id ++ bytes "/stat") ∧
      (listed.entry mode).files.status =
        (listed.visit.procfs .status).file (mode.directory listed.id ++ bytes "/status") ∧
      (listed.entry mode).files.io =
        (listed.visit.procfs .io).file (mode.directory listed.id ++ bytes "/io") ∧
      (listed.entry mode).files.cmdline =
        (listed.visit.procfs .cmdline).stream (mode.processDirectory listed.id ++ bytes "/cmdline") ∧
      (listed.entry mode).files.statForName =
        (listed.visit.procfs .statForName).file (mode.directory listed.id ++ bytes "/stat") := by
  have names := mode.setIds_directory listed.id {}
  have file {name : String} (short : (bytes name).length ≤ 200) :
      procFilename (bytes name) (mode.ids listed.id).1 (mode.ids listed.id).2 =
        mode.directory listed.id ++ 47 :: bytes name := mode.procFilename_directory listed.id short
  have cmdline := mode.snprintf_processDirectory listed.id (show 220 ≤ bufferStrlen by decide)
    (show (bytes "/cmdline").length ≤ 200 by decide)
  rw [entry, Visit.entry, names]
  unfold Visit.files
  dsimp only
  rw [file (by decide), file (by decide), file (by decide), cmdline]
  exact ⟨rfl, rfl, rfl, rfl, rfl⟩

theorem mandatoryData_uncounted (uncounted : Uncounted mode listed.id listed.visit) (data : ProcData) :
    counters (mandatoryData sys (listed.entry mode).files data).2 = counters data := by
  obtain ⟨stat, status, io, -, -⟩ := entry_files mode listed
  obtain ⟨values, _, statParse⟩ := parseProcPidStat_assigns (listed.entry mode).files
  rw [Uncounted, ← stat, ← status, ← io] at uncounted
  rcases uncounted with noStat | noStatus | noIo
  · rw [mandatoryData, andThen, parseProcPidStat_unread noStat]
  · have kept : counters (assign statArguments values data) = counters data :=
      assign_frame counters (by simp [statArguments, counters]) values data
    rw [mandatoryData, andThen, statParse]
    cases values.length == statArguments.length with
    | false => exact kept
    | true =>
        simp only [andThen, parseProcPidStatus_unread noStatus]
        exact kept
  · have unread : ioRead sys (listed.entry mode).files = false := by
      simp [ioRead, noIo.unread]
    obtain ⟨values, _, parse⟩ := mandatoryData_unread unread
    rw [parse]
    exact counters_assign_fields values data

theorem parseProcPidCmdline_nameless (nameless : Nameless mode listed.id listed.visit) {data : ProcData}
    (own : data.tid = (mode.ids listed.id).2) :
    (parseProcPidCmdline (listed.entry mode).files { data := data }).1 = false := by
  obtain ⟨-, -, -, cmdline, again⟩ := entry_files mode listed
  cases mode with
  | all =>
      have process : data.tid = -1 := own
      rcases nameless with closed | ⟨ended, content, blankLine, opened⟩
      · have unread : (listed.entry .all).files.cmdline = none := by
          rw [cmdline, Procfs.stream, closed]
        simp [parseProcPidCmdline, process, unread]
      · have read : (listed.entry .all).files.cmdline = some content := cmdline.trans opened
        have joined := readCmdline_spaced content []
        simp [parseProcPidCmdline, process, read, joined, blankLine, again, statName_unread ended]
  | threads pid =>
      have thread : data.tid ≠ -1 := by
        have positive := listed.id.positive
        change data.tid = listed.id.value at own
        omega
      have ended : statName (listed.entry (.threads pid)).files.statForName = none := by
        rw [again]
        exact statName_unread nameless
      simp [parseProcPidCmdline, thread, ended]

theorem parseFresh_gone (gone : Gone mode listed.id listed.visit) :
    (parseFresh sys mode.pid (listed.entry mode)).1 = false := by
  obtain ⟨stat, status, -, -, -⟩ := entry_files mode listed
  obtain ⟨values, _, statParse⟩ := parseProcPidStat_assigns (listed.entry mode).files
  rw [Gone, ← stat, ← status] at gone
  rcases gone with noStat | noStatus | nameless
  · have stops : (mandatoryData sys (listed.entry mode).files
        (setIds mode.pid (listed.entry mode).path {})).1 = false := by
      rw [mandatoryData, andThen, parseProcPidStat_unread noStat]
    rw [parseFresh, parseMandatory_stops stops]
  · have stops : (mandatoryData sys (listed.entry mode).files
        (setIds mode.pid (listed.entry mode).path {})).1 = false := by
      rw [mandatoryData, andThen, statParse]
      cases values.length == statArguments.length with
      | false => rfl
      | true => simp only [andThen, parseProcPidStatus_unread noStatus]
    rw [parseFresh, parseMandatory_stops stops]
  · cases matched : (mandatoryData sys (listed.entry mode).files
        (setIds mode.pid (listed.entry mode).path {})).1 with
    | false => rw [parseFresh, parseMandatory_stops matched]
    | true =>
        have path : (listed.entry mode).path = mode.directory listed.id := rfl
        have kept := congrArg (·.tid) (mandatoryData_kept sys (listed.entry mode).files
          (setIds mode.pid (listed.entry mode).path {}))
        have own : (mandatoryData sys (listed.entry mode).files
            (setIds mode.pid (listed.entry mode).path {})).2.tid = (mode.ids listed.id).2 := by
          refine Eq.trans kept ?_
          rw [path, mode.setIds_directory listed.id]
          rfl
        rw [parseFresh, parseMandatory_goesOn matched]
        exact parseProcPidCmdline_nameless mode nameless own

theorem parseFresh_image {image : TaskImage} (found : listed.image = some image)
    (shown : listed.Shown mode) (unforged : image.Unforged) :
    parseFresh sys mode.pid (listed.entry mode) = (true, {
      name := image.command mode
      data := image.withMandatory sys
        { pid := (mode.ids listed.id).1, tid := (mode.ids listed.id).2 } }) := by
  have own : image.Shown mode listed.id listed.visit := by
    simpa only [Listed.Shown, found] using shown
  have read : image.ReadFrom listed.visit (listed.entry mode).files := own.readFrom
  have path : (listed.entry mode).path = mode.directory listed.id := rfl
  have mandatory := TaskImage.mandatoryData_image read unforged sys
    { pid := (mode.ids listed.id).1, tid := (mode.ids listed.id).2 }
  rw [parseFresh, path, mode.setIds_directory listed.id]
  have goesOn := @parseMandatory_goesOn sys (listed.entry mode).files
    { data := { pid := (mode.ids listed.id).1, tid := (mode.ids listed.id).2 } } (by rw [mandatory])
  rw [goesOn, mandatory]
  have sameTid : (image.withMandatory sys
      { pid := (mode.ids listed.id).1, tid := (mode.ids listed.id).2 }).tid = (mode.ids listed.id).2 := by
    unfold TaskImage.withMandatory TaskImage.withCredentials
    split <;> rfl
  exact TaskImage.parseProcPidCmdline_image read mode listed.id sameTid

theorem storeRecord_image {image : TaskImage} {visit : Visit} {files : ProcFiles}
    (read : image.ReadFrom visit files) (id : PositiveInt) :
    storeRecord sys starttime mode.pid files (parseOptional files {
        name := image.command mode
        data := image.withMandatory sys { pid := (mode.ids id).1, tid := (mode.ids id).2 } }) =
      image.record sys starttime mode id visit := by
  have zombie : ((image.line.state.toNat : Int) == 90) = (image.line.state == 90) := by
    rw [Bool.eq_iff_iff, beq_iff_eq, beq_iff_eq, ← UInt8.toNat_inj]
    exact Int.natCast_inj
  have blankFiles : (image.withMandatory sys
      { pid := (mode.ids id).1, tid := (mode.ids id).2 }).filedescriptors = {} := by
    unfold TaskImage.withMandatory TaskImage.withCredentials
    split <;> rfl
  have blankAttr : (image.withMandatory sys
      { pid := (mode.ids id).1, tid := (mode.ids id).2 }).secattr = [] := by
    unfold TaskImage.withMandatory TaskImage.withCredentials
    split <;> rfl
  have own : (if mode.pid = allProcesses then (mode.ids id).1 else (mode.ids id).2) = id.value := by
    cases mode with
    | all => rfl
    | threads pid => exact if_neg pid.single
  rw [TaskImage.parseOptional_image read _ blankFiles blankAttr]
  unfold TaskImage.withMandatory TaskImage.withCredentials TaskImage.record TaskImage.counters storeRecord
  rw [read.uptimeMilli, read.readMilli]
  cases sys.hasIOStatistics with
  | false =>
      simp only [zombie, own]
      rfl
  | true =>
      cases image.io with
      | none =>
          simp only [zombie, own]
          rfl
      | some io => simp only [zombie, own]

theorem freshRecord_image (shown : listed.Shown mode)
    (unforged : ∀ image ∈ listed.image, image.Unforged) :
    freshRecord sys starttime mode.pid (listed.entry mode) = listed.record sys starttime mode := by
  cases found : listed.image with
  | none =>
      have gone : Gone mode listed.id listed.visit := by simpa only [Listed.Shown, found] using shown
      rw [freshRecord_rejected starttime (parseFresh_gone sys mode gone), record, found]
      rfl
  | some image =>
      have parsed := parseFresh_image sys mode found shown (unforged image found)
      have own : image.Shown mode listed.id listed.visit := by
        simpa only [Listed.Shown, found] using shown
      have read : image.ReadFrom listed.visit (listed.entry mode).files := own.readFrom
      rw [freshRecord_accepted starttime (by rw [parsed]), parsed,
        storeRecord_image sys starttime mode read, record, found]
      rfl

theorem carriedCounters_listed {tasks : List Listed}
    (kept : ∀ listed ∈ tasks, (parseFresh sys mode.pid (listed.entry mode)).1 = true ∨
      ∀ data, counters (mandatoryData sys (listed.entry mode).files data).2 = counters data) :
    carriedCounters sys mode.pid (tasks.map (entry mode)) ({}, {}) = ({}, {}) := by
  induction tasks with
  | nil => rfl
  | cons listed tasks ih =>
      have first : leftCounters sys mode.pid ({}, {}) (listed.entry mode) = ({}, {}) := by
        rw [leftCounters]
        split
        · rfl
        · rename_i rejected
          exact (kept listed List.mem_cons_self).resolve_left rejected _
      have later := ih fun other member => kept other (List.mem_cons_of_mem listed member)
      rw [List.map_cons, carriedCounters, List.foldl_cons, first]
      exact later

end Listed

/-- What the kernel shows to one scan: its tasks in the order of the directory. A task may end
at any moment. Where one ended with its transfer counters read already, those of the tasks
behind it can be read too. -/
structure Outside.Shows (outside : Outside) (mode : ScanMode) (tasks : List Listed) : Prop where
  globbed : outside.globbed = some (tasks.map (Listed.path mode))
  shown : ∀ listed ∈ tasks, listed.Shown mode
  unforged : ∀ listed ∈ tasks, ∀ image ∈ listed.image, image.Unforged
  counted : tasks.Pairwise fun earlier later => earlier.image = none →
    Uncounted mode earlier.id earlier.visit ∨ ∀ image ∈ later.image, image.io ≠ none

namespace Outside.Shows

variable {outside : Outside} {mode : ScanMode} {tasks : List Listed}

/-- No task without readable counters finds those of a task before it. -/
theorem uncarried (shows : outside.Shows mode tasks) (sys : Sys) {before rest : List Listed}
    {listed : Listed} (split : tasks = before ++ listed :: rest)
    (accepted : (parseFresh sys mode.pid (listed.entry mode)).1 = true)
    (unread : ioRead sys (listed.entry mode).files = false) :
    carriedCounters sys mode.pid (before.map (Listed.entry mode)) ({}, {}) = ({}, {}) := by
  apply Listed.carriedCounters_listed
  intro earlier member
  have inTasks : earlier ∈ tasks := split ▸ List.mem_append_left _ member
  have own := shows.shown earlier inTasks
  cases found : earlier.image with
  | some image =>
      have parsed := Listed.parseFresh_image sys mode found own (shows.unforged earlier inTasks image found)
      exact Or.inl (by rw [parsed])
  | none =>
      refine Or.inr fun data => ?_
      cases statistics : sys.hasIOStatistics with
      | false =>
          have noIo : ioRead sys (earlier.entry mode).files = false := by simp [ioRead, statistics]
          obtain ⟨values, _, parse⟩ := mandatoryData_unread noIo
          rw [parse]
          exact counters_assign_fields values data
      | true =>
          have pairs := split ▸ shows.counted
          rw [List.pairwise_append] at pairs
          refine Listed.mandatoryData_uncounted sys mode
            ((pairs.2.2 earlier member listed List.mem_cons_self found).resolve_right ?_) data
          intro readable
          have listedIn : listed ∈ tasks := split ▸ List.mem_append_right _ List.mem_cons_self
          have shown := shows.shown listed listedIn
          cases image : listed.image with
          | none =>
              have gone : Gone mode listed.id listed.visit := by
                simpa only [Listed.Shown, image] using shown
              rw [Listed.parseFresh_gone sys mode gone] at accepted
              cases accepted
          | some image' =>
              have visible : image'.Shown mode listed.id listed.visit := by
                simpa only [Listed.Shown, image] using shown
              have read : ioRead sys (listed.entry mode).files = true :=
                visible.readFrom.io_read statistics (readable image' image)
              rw [read] at unread
              cases unread

theorem scanned (shows : outside.Shows mode tasks) (sys : Sys) :
    initprocesstreeSysdep sys (outside.scan mode.pid) mode.pid =
      some (tasks.filterMap (Listed.record sys outside.starttime mode)) := by
  have entries : (tasks.map (Listed.path mode)).map (fun path => path.2.entry mode.pid path.1) =
      tasks.map (Listed.entry mode) := by
    rw [List.map_map]
    rfl
  have fresh := (scanEntries_fresh_iff sys outside.starttime mode.pid (tasks.map (Listed.entry mode))
    carried_initial).mpr (by
      intro before entry rest split accepted unread
      obtain ⟨earlier, later, tasksEq, rfl, entryEq⟩ := List.map_eq_append_iff.mp split
      obtain ⟨listed, behind, rfl, rfl, -⟩ := List.map_eq_cons_iff.mp entryEq
      rw [shows.uncarried sys tasksEq accepted unread]
      rfl)
  rw [initprocesstreeSysdep, Outside.scan, shows.globbed, Option.map_some, entries, Option.map_some,
    fresh, List.filterMap_map]
  refine congrArg some (List.filterMap_congr fun listed member => ?_)
  exact Listed.freshRecord_image sys outside.starttime mode (shows.shown listed member)
    (shows.unforged listed member)

end Outside.Shows

def fileAt (name : Bytes) (answer : FileRead) (filename : Bytes) : FileRead :=
  if filename = name then answer else .openFailed

theorem fileAt_same (name : Bytes) (answer : FileRead) : fileAt name answer name = answer :=
  if_pos rfl

def TaskImage.visit (image : TaskImage) (mode : ScanMode) (id : PositiveInt)
    (uptimeMilli readMilli : Int) : Visit where
  procfs := fun access => {
    file := match access with
      | .stat => fileAt (mode.directory id ++ bytes "/stat") (.content image.line.render)
      | .status =>
          fileAt (mode.directory id ++ bytes "/status") (.content (statusText image.name image.status))
      | .io => fileAt (mode.directory id ++ bytes "/io")
          (image.io.elim .openFailed fun io => .content (rowsText io.rows))
      | .cmdline => fileAt (mode.processDirectory id ++ bytes "/cmdline") (.content image.cmdline)
      | .statForName => fileAt (mode.directory id ++ bytes "/stat") (.content image.again.render)
      | .fd => fun _ => .openFailed
      | .limits => fileAt (mode.processDirectory id ++ bytes "/limits")
          (image.limits.elim .openFailed fun limits => .content limits.text)
      | .attrCurrent => fileAt (mode.directory id ++ bytes "/attr/current") image.attrCurrent
    directory := fun name =>
      if name = mode.processDirectory id ++ bytes "/fd" then
        image.descriptors.map fun opened => ⟨opened + 2, false⟩
      else none }
  uptimeMilli := uptimeMilli
  readMilli := readMilli

end SimpleProcessMonitor
