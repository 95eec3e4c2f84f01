import SimpleProcessMonitor.ParserChecks

/-!
The scan loop, which hands one `Proc_T` from process to process: what a rejected process
leaves in it and when a later record shows that.
-/

namespace SimpleProcessMonitor

open CString

def fieldArguments : List (Int → ProcData → ProcData) :=
  statArguments ++ (uidArguments ++ gidArguments)

def ioArguments : List (Int → ProcData → ProcData) :=
  ioKeys.map Prod.snd

def counters (data : ProcData) : Transfer × Transfer :=
  (data.read, data.write)

def withCounters (left : Transfer × Transfer) (data : ProcData) : ProcData :=
  { data with read := left.1, write := left.2 }

/-- The fields that no mandatory parser writes. -/
def blank (data : ProcData) : ProcData where
  pid := data.pid
  tid := data.tid
  filedescriptors := data.filedescriptors
  secattr := data.secattr

theorem blank_assign (values : List Int) (data : ProcData) :
    blank (assign (fieldArguments ++ ioArguments) values data) = blank data := by
  apply assign_frame
  simp [fieldArguments, ioArguments, statArguments, uidArguments, gidArguments, ioKeys, blank]

theorem blank_assign_fields (values : List Int) (data : ProcData) :
    blank (assign fieldArguments values data) = blank data := by
  apply assign_frame
  simp [fieldArguments, statArguments, uidArguments, gidArguments, blank]

theorem counters_assign_fields (values : List Int) (data : ProcData) :
    counters (assign fieldArguments values data) = counters data := by
  apply assign_frame
  simp [fieldArguments, statArguments, uidArguments, gidArguments, counters]

theorem counters_assign_congr (values : List Int) {first second : ProcData}
    (same : counters first = counters second) :
    counters (assign (fieldArguments ++ ioArguments) values first) =
      counters (assign (fieldArguments ++ ioArguments) values second) := by
  have alone : ∀ set ∈ fieldArguments ++ ioArguments, ∀ value data,
      counters (set value data) = counters (set value (withCounters (counters data) {})) := by
    simp [fieldArguments, ioArguments, statArguments, uidArguments, gidArguments, ioKeys, counters,
      withCounters]
  refine assign_congr counters ?_ values same
  intro set member value first second same
  rw [alone set member value first, alone set member value second, same]

theorem assign_fields (values : List Int) (full : values.length = fieldArguments.length)
    (data : ProcData) : assign fieldArguments values data =
      withCounters (counters data) (assign fieldArguments values (blank data)) := by
  match values, full with
  | [_, _, _, _, _, _, _, _, _, _, _, _], _ => rfl

theorem assign_all (values : List Int)
    (full : values.length = (fieldArguments ++ ioArguments).length) (data : ProcData) :
    assign (fieldArguments ++ ioArguments) values data =
      assign (fieldArguments ++ ioArguments) values (blank data) := by
  match values, full with
  | [_, _, _, _, _, _, _, _, _, _, _, _, _, _, _, _, _, _], _ => rfl

/-! The mandatory parsers in a row. -/

def mandatoryData (sys : Sys) (files : ProcFiles) : ProcData → Bool × ProcData :=
  andThen (parseProcPidStat files)
    (andThen (parseProcPidStatus files) (parseProcPidIo sys.hasIOStatistics files))

theorem parseMandatory_eq (sys : Sys) (files : ProcFiles) (proc : ProcT) :
    parseMandatory sys files proc =
      match mandatoryData sys files proc.data with
      | (false, data) => (false, { proc with data := data })
      | (true, data) => parseProcPidCmdline files { proc with data := data } := by
  rcases stat : parseProcPidStat files proc.data with ⟨_ | _, afterStat⟩
  · simp [parseMandatory, mandatoryData, andThen, stat]
  · rcases status : parseProcPidStatus files afterStat with ⟨_ | _, afterStatus⟩
    · simp [parseMandatory, mandatoryData, andThen, stat, status]
    · rcases io : parseProcPidIo sys.hasIOStatistics files afterStatus with ⟨_ | _, afterIo⟩
      · simp [parseMandatory, mandatoryData, andThen, stat, status, io]
      · simp [parseMandatory, mandatoryData, andThen, stat, status, io]

theorem parseMandatory_stops {sys : Sys} {files : ProcFiles} {proc : ProcT}
    (failed : (mandatoryData sys files proc.data).1 = false) :
    parseMandatory sys files proc =
      (false, { proc with data := (mandatoryData sys files proc.data).2 }) := by
  rw [parseMandatory_eq]
  rcases result : mandatoryData sys files proc.data with ⟨_ | _, data⟩
  · rfl
  · rw [result] at failed
    cases failed

theorem parseMandatory_goesOn {sys : Sys} {files : ProcFiles} {proc : ProcT}
    (matched : (mandatoryData sys files proc.data).1 = true) :
    parseMandatory sys files proc =
      parseProcPidCmdline files { proc with data := (mandatoryData sys files proc.data).2 } := by
  rw [parseMandatory_eq]
  rcases result : mandatoryData sys files proc.data with ⟨_ | _, data⟩
  · rw [result] at matched
    cases matched
  · rfl

theorem mandatoryData_read {sys : Sys} {files : ProcFiles} (read : ioRead sys files = true) :
    Assigns (mandatoryData sys files) (fieldArguments ++ ioArguments) := by
  rw [fieldArguments, List.append_assoc]
  exact (parseProcPidStat_assigns files).andThen
    ((parseProcPidStatus_assigns files).andThen (parseProcPidIo_assigns read) (by decide))
    (by decide)

theorem mandatoryData_unread {sys : Sys} {files : ProcFiles} (unread : ioRead sys files = false) :
    Assigns (mandatoryData sys files) fieldArguments := by
  have passed : andThen (parseProcPidStatus files) (parseProcPidIo sys.hasIOStatistics files) =
      parseProcPidStatus files := by
    funext data
    simp only [andThen, parseProcPidIo_unread unread]
    rcases parseProcPidStatus files data with ⟨_ | _, status⟩ <;> rfl
  rw [mandatoryData, passed]
  exact (parseProcPidStat_assigns files).andThen (parseProcPidStatus_assigns files) (by decide)

theorem mandatoryData_blank {sys : Sys} {files : ProcFiles} (read : ioRead sys files = true)
    (data : ProcData) :
    (mandatoryData sys files data).1 = (mandatoryData sys files (blank data)).1 ∧
    ((mandatoryData sys files data).1 = true →
      (mandatoryData sys files data).2 = (mandatoryData sys files (blank data)).2) := by
  obtain ⟨values, _, parse⟩ := mandatoryData_read read
  rw [parse, parse]
  refine ⟨rfl, fun matched => ?_⟩
  exact assign_all values (by simpa using matched) data

theorem mandatoryData_withCounters {sys : Sys} {files : ProcFiles}
    (unread : ioRead sys files = false) (data : ProcData) :
    (mandatoryData sys files data).1 = (mandatoryData sys files (blank data)).1 ∧
    ((mandatoryData sys files data).1 = true → (mandatoryData sys files data).2 =
      withCounters (counters data) (mandatoryData sys files (blank data)).2) := by
  obtain ⟨values, _, parse⟩ := mandatoryData_unread unread
  rw [parse, parse]
  refine ⟨rfl, fun matched => ?_⟩
  exact assign_fields values (by simpa using matched) data

theorem mandatoryData_kept (sys : Sys) (files : ProcFiles) (data : ProcData) :
    blank (mandatoryData sys files data).2 = blank data := by
  cases read : ioRead sys files with
  | true =>
      obtain ⟨values, _, parse⟩ := mandatoryData_read read
      rw [parse]
      exact blank_assign values data
  | false =>
      obtain ⟨values, _, parse⟩ := mandatoryData_unread read
      rw [parse]
      exact blank_assign_fields values data

theorem mandatoryData_counters (sys : Sys) (files : ProcFiles) {first second : ProcData}
    (same : counters first = counters second) :
    counters (mandatoryData sys files first).2 = counters (mandatoryData sys files second).2 := by
  cases read : ioRead sys files with
  | true =>
      obtain ⟨values, _, parse⟩ := mandatoryData_read read
      rw [parse, parse]
      exact counters_assign_congr values same
  | false =>
      obtain ⟨values, _, parse⟩ := mandatoryData_unread read
      rw [parse, parse, counters_assign_fields, counters_assign_fields, same]

/-! The parsers after them. -/

theorem parseProcPidCmdline_data (files : ProcFiles) (name : Bytes) {first second : ProcData}
    (same : first.tid = second.tid) :
    parseProcPidCmdline files { name := name, data := first } =
      ((parseProcPidCmdline files { name := name, data := second }).1,
        { name := (parseProcPidCmdline files { name := name, data := second }).2.name,
          data := first }) := by
  simp only [parseProcPidCmdline, same]
  split
  · split
    · rfl
    · split
      · split <;> rfl
      · rfl
  · split
    · split <;> rfl
    · rfl

theorem parseProcPidCmdline_fails {files : ProcFiles} {proc : ProcT} (empty : proc.name = [])
    (failed : (parseProcPidCmdline files proc).1 = false) :
    (parseProcPidCmdline files proc).2.name = [] := by
  by_cases process : proc.data.tid = -1
  · cases content : files.cmdline with
    | none => simpa [parseProcPidCmdline, process, content] using empty
    | some text =>
        by_cases unnamed : trim (readCmdline text proc.name) = []
        · cases found : statName files.statForName with
          | none => simp [parseProcPidCmdline, process, content, unnamed, found]
          | some procname =>
              simp [parseProcPidCmdline, process, content, unnamed, found] at failed
        · simp [parseProcPidCmdline, process, content, unnamed] at failed
  · cases found : statName files.statForName with
    | none => simp [parseProcPidCmdline, process, empty, found]
    | some procname => simp [parseProcPidCmdline, process, empty, found] at failed

theorem parseProcFdCount_withCounters (files : ProcFiles) (left : Transfer × Transfer)
    (data : ProcData) : (parseProcFdCount files (withCounters left data)).2 =
      withCounters left (parseProcFdCount files data).2 := by
  simp only [parseProcFdCount]
  repeat' split
  all_goals rfl

theorem parseProcPidAttrCurrent_withCounters (files : ProcFiles) (left : Transfer × Transfer)
    (data : ProcData) : (parseProcPidAttrCurrent files (withCounters left data)).2 =
      withCounters left (parseProcPidAttrCurrent files data).2 := by
  simp only [parseProcPidAttrCurrent]
  split <;> rfl

def withTransfers (left : Transfer × Transfer) (record : ProcessRecord) : ProcessRecord :=
  { record with read := transfer left.1, write := transfer left.2 }

theorem storeRecord_withCounters (sys : Sys) (starttime pid : Int) (files : ProcFiles)
    (left : Transfer × Transfer) (name : Bytes) (data : ProcData) :
    storeRecord sys starttime pid files
        (parseOptional files { name := name, data := withCounters left data }) =
      withTransfers left (storeRecord sys starttime pid files
        (parseOptional files { name := name, data := data })) := by
  simp only [parseOptional, parseProcFdCount_withCounters, parseProcPidAttrCurrent_withCounters]
  rfl

/-! One round of the loop. -/

/-- The `Proc_T` between two rounds: only the counters can have outlived a process. -/
structure Carried (left : Transfer × Transfer) (proc : ProcT) : Prop where
  name : proc.name = []
  filedescriptors : proc.data.filedescriptors = {}
  secattr : proc.data.secattr = []
  counters : counters proc.data = left

theorem carried_initial : Carried ({}, {}) {} :=
  ⟨rfl, rfl, rfl, rfl⟩

def parseFresh (sys : Sys) (pid : Int) (entry : GlobEntry) : Bool × ProcT :=
  parseMandatory sys entry.files { data := setIds pid entry.path {} }

/-- The counters that a process leaves behind for the next one. -/
def leftCounters (sys : Sys) (pid : Int) (left : Transfer × Transfer) (entry : GlobEntry) :
    Transfer × Transfer :=
  if (parseFresh sys pid entry).1 then ({}, {})
  else counters (mandatoryData sys entry.files (withCounters left {})).2

theorem setIds_blank (pid : Int) (path : Bytes) {left : Transfer × Transfer} {proc : ProcT}
    (carried : Carried left proc) : blank (setIds pid path proc.data) = setIds pid path {} := by
  simp only [setIds]
  split <;> simp [blank, carried.filedescriptors, carried.secattr]

theorem setIds_counters (pid : Int) (path : Bytes) (data : ProcData) :
    counters (setIds pid path data) = counters data := by
  simp only [setIds]
  split <;> rfl

theorem mandatoryData_carried (sys : Sys) (pid : Int) (entry : GlobEntry)
    {left : Transfer × Transfer} {proc : ProcT} (carried : Carried left proc) :
    (mandatoryData sys entry.files (setIds pid entry.path proc.data)).1 =
      (mandatoryData sys entry.files (setIds pid entry.path {})).1 ∧
    ((mandatoryData sys entry.files (setIds pid entry.path proc.data)).1 = true →
      (mandatoryData sys entry.files (setIds pid entry.path proc.data)).2 =
        if ioRead sys entry.files then (mandatoryData sys entry.files (setIds pid entry.path {})).2
        else withCounters left (mandatoryData sys entry.files (setIds pid entry.path {})).2) := by
  rw [← setIds_blank pid entry.path carried]
  cases read : ioRead sys entry.files with
  | true => simpa using mandatoryData_blank read (setIds pid entry.path proc.data)
  | false =>
      have whole := mandatoryData_withCounters read (setIds pid entry.path proc.data)
      rw [setIds_counters, carried.counters] at whole
      simpa using whole

theorem carried_rejected (sys : Sys) (pid : Int) (entry : GlobEntry)
    {left : Transfer × Transfer} {proc : ProcT} (carried : Carried left proc)
    (rejected : (parseFresh sys pid entry).1 = false) {name : Bytes} (empty : name = []) :
    Carried (leftCounters sys pid left entry) {
      name := name
      data := (mandatoryData sys entry.files (setIds pid entry.path proc.data)).2 } := by
  have kept := mandatoryData_kept sys entry.files (setIds pid entry.path proc.data)
  refine ⟨empty, ?_, ?_, ?_⟩
  · have part : _ = (setIds pid entry.path proc.data).filedescriptors :=
      congrArg (·.filedescriptors) kept
    refine part.trans ?_
    simp only [setIds]
    split <;> exact carried.filedescriptors
  · have part : _ = (setIds pid entry.path proc.data).secattr := congrArg (·.secattr) kept
    refine part.trans ?_
    simp only [setIds]
    split <;> exact carried.secattr
  · rw [leftCounters, if_neg (by simp [rejected])]
    apply mandatoryData_counters
    rw [setIds_counters, carried.counters]
    rfl

theorem parseMandatory_carried (sys : Sys) (pid : Int) (entry : GlobEntry)
    {left : Transfer × Transfer} {proc : ProcT} (carried : Carried left proc) :
    ((parseFresh sys pid entry).1 = false ∧ ∃ rest,
      parseMandatory sys entry.files { proc with data := setIds pid entry.path proc.data } =
        (false, rest) ∧ Carried (leftCounters sys pid left entry) rest) ∨
    ((parseFresh sys pid entry).1 = true ∧
      parseMandatory sys entry.files { proc with data := setIds pid entry.path proc.data } =
        (true, { (parseFresh sys pid entry).2 with
          data := if ioRead sys entry.files then (parseFresh sys pid entry).2.data
            else withCounters left (parseFresh sys pid entry).2.data })) := by
  obtain ⟨flag, dataEq⟩ := mandatoryData_carried sys pid entry carried
  cases matched : (mandatoryData sys entry.files (setIds pid entry.path {})).1 with
  | false =>
      rw [matched] at flag
      have fresh : (parseFresh sys pid entry).1 = false := by
        rw [parseFresh, parseMandatory_stops matched]
      exact Or.inl ⟨fresh, _, parseMandatory_stops flag,
        carried_rejected sys pid entry carried fresh carried.name⟩
  | true =>
      rw [matched] at flag
      have fresh : parseFresh sys pid entry = parseProcPidCmdline entry.files {
          data := (mandatoryData sys entry.files (setIds pid entry.path {})).2 } := by
        rw [parseFresh, parseMandatory_goesOn matched]
      have sameTid : (mandatoryData sys entry.files (setIds pid entry.path proc.data)).2.tid =
          (mandatoryData sys entry.files (setIds pid entry.path {})).2.tid := by
        rw [dataEq flag]
        split <;> rfl
      have named := parseProcPidCmdline_data entry.files [] sameTid
      have freshNamed := parseProcPidCmdline_data entry.files []
        (Eq.refl (mandatoryData sys entry.files (setIds pid entry.path {})).2.tid)
      rw [← fresh] at named freshNamed
      have parsed : parseMandatory sys entry.files
          { proc with data := setIds pid entry.path proc.data } =
          ((parseFresh sys pid entry).1, {
            name := (parseFresh sys pid entry).2.name
            data := (mandatoryData sys entry.files (setIds pid entry.path proc.data)).2 }) := by
        rw [parseMandatory_goesOn flag, carried.name]
        exact named
      rw [parsed]
      cases accepted : (parseFresh sys pid entry).1 with
      | false =>
          refine Or.inl ⟨rfl, _, rfl, ?_⟩
          apply carried_rejected sys pid entry carried accepted
          rw [fresh] at accepted ⊢
          exact parseProcPidCmdline_fails rfl accepted
      | true =>
          refine Or.inr ⟨rfl, ?_⟩
          have dataFresh : (parseFresh sys pid entry).2.data =
              (mandatoryData sys entry.files (setIds pid entry.path {})).2 :=
            congrArg (·.2.data) freshNamed
          rw [dataEq flag, dataFresh]

def freshRecord (sys : Sys) (starttime pid : Int) (entry : GlobEntry) : Option ProcessRecord :=
  (scanEntry sys starttime pid entry {}).1

theorem freshRecord_rejected {sys : Sys} {pid : Int} {entry : GlobEntry} (starttime : Int)
    (rejected : (parseFresh sys pid entry).1 = false) :
    freshRecord sys starttime pid entry = none := by
  have parsed : parseMandatory sys entry.files
      { ({} : ProcT) with data := setIds pid entry.path ({} : ProcT).data } =
        (false, (parseFresh sys pid entry).2) := Prod.ext rejected rfl
  simp only [freshRecord, scanEntry, parsed]

theorem freshRecord_accepted {sys : Sys} {pid : Int} {entry : GlobEntry} (starttime : Int)
    (accepted : (parseFresh sys pid entry).1 = true) :
    freshRecord sys starttime pid entry =
      some (storeRecord sys starttime pid entry.files
        (parseOptional entry.files (parseFresh sys pid entry).2)) := by
  have parsed : parseMandatory sys entry.files
      { ({} : ProcT) with data := setIds pid entry.path ({} : ProcT).data } =
        (true, (parseFresh sys pid entry).2) := Prod.ext accepted rfl
  simp only [freshRecord, scanEntry, parsed]

/-- One round with a carried `Proc_T`: the record of the process alone, or that record with
the carried counters. -/
theorem scanEntry_carried (sys : Sys) (starttime pid : Int) (entry : GlobEntry)
    {left : Transfer × Transfer} {proc : ProcT} (carried : Carried left proc) :
    Carried (leftCounters sys pid left entry) (scanEntry sys starttime pid entry proc).2 ∧
    (scanEntry sys starttime pid entry proc).1 = (freshRecord sys starttime pid entry).map
      fun record => if ioRead sys entry.files then record else withTransfers left record := by
  rcases parseMandatory_carried sys pid entry carried with ⟨rejected, rest, parsed, behind⟩ |
    ⟨accepted, parsed⟩
  · simp only [scanEntry, parsed, freshRecord_rejected starttime rejected]
    exact ⟨behind, rfl⟩
  · simp only [scanEntry, parsed, freshRecord_accepted starttime accepted]
    refine ⟨by simpa [leftCounters, accepted] using carried_initial, ?_⟩
    cases ioRead sys entry.files with
    | true => rfl
    | false => exact congrArg some (storeRecord_withCounters sys starttime pid entry.files left _ _)

theorem freshRecord_unread {sys : Sys} {starttime pid : Int} {entry : GlobEntry}
    {record : ProcessRecord} (unread : ioRead sys entry.files = false)
    (yields : freshRecord sys starttime pid entry = some record) :
    withTransfers ({}, {}) record = record := by
  have own := (scanEntry_carried sys starttime pid entry carried_initial).2
  change freshRecord sys starttime pid entry = _ at own
  rw [yields, unread] at own
  exact (Option.some.inj own).symm

def shownCounters (left : Transfer × Transfer) : Transfer × Transfer :=
  (transfer left.1, transfer left.2)

theorem scanEntry_fresh_iff (sys : Sys) (starttime pid : Int) (entry : GlobEntry)
    {left : Transfer × Transfer} {proc : ProcT} (carried : Carried left proc) :
    (scanEntry sys starttime pid entry proc).1 = freshRecord sys starttime pid entry ↔
      ((parseFresh sys pid entry).1 = true → ioRead sys entry.files = false →
        shownCounters left = ({}, {})) := by
  rw [(scanEntry_carried sys starttime pid entry carried).2]
  cases accepted : (parseFresh sys pid entry).1 with
  | false => simp [freshRecord_rejected starttime accepted]
  | true =>
      cases unread : ioRead sys entry.files with
      | true => simp
      | false =>
          have yields := freshRecord_accepted starttime accepted
          have own := freshRecord_unread unread yields
          generalize storeRecord sys starttime pid entry.files
            (parseOptional entry.files (parseFresh sys pid entry).2) = record at yields own
          have reads : record.read = {} := (congrArg (·.read) own).symm
          have writes : record.write = {} := (congrArg (·.write) own).symm
          simp only [yields, Option.map_some, Option.some.injEq, Bool.false_eq_true, if_false,
            forall_const, shownCounters, Prod.mk.injEq]
          constructor
          · intro same
            exact ⟨(congrArg (·.read) same).trans reads, (congrArg (·.write) same).trans writes⟩
          · rintro ⟨readZero, writeZero⟩
            have zeroed : withTransfers left record = withTransfers ({}, {}) record := by
              simp only [withTransfers, readZero, writeZero]
              rfl
            exact zeroed.trans own

/-- The counters carried out of a whole sequence of processes. -/
def carriedCounters (sys : Sys) (pid : Int) (entries : List GlobEntry)
    (left : Transfer × Transfer) : Transfer × Transfer :=
  entries.foldl (leftCounters sys pid) left

theorem scanEntries_fresh_iff (sys : Sys) (starttime pid : Int) (entries : List GlobEntry)
    {left : Transfer × Transfer} {proc : ProcT} (carried : Carried left proc) :
    scanEntries sys starttime pid entries proc =
        entries.filterMap (freshRecord sys starttime pid) ↔
      ∀ before entry rest, entries = before ++ entry :: rest →
        (parseFresh sys pid entry).1 = true → ioRead sys entry.files = false →
          shownCounters (carriedCounters sys pid before left) = ({}, {}) := by
  induction entries generalizing left proc with
  | nil => simp [scanEntries]
  | cons entry entries ih =>
      obtain ⟨next, outcome⟩ := scanEntry_carried sys starttime pid entry carried
      have single := scanEntry_fresh_iff sys starttime pid entry carried
      have lengths : (scanEntry sys starttime pid entry proc).1.toList.length =
          (freshRecord sys starttime pid entry).toList.length := by
        rw [outcome]
        cases freshRecord sys starttime pid entry <;> rfl
      have fresh : (entry :: entries).filterMap (freshRecord sys starttime pid) =
          (freshRecord sys starttime pid entry).toList ++
            entries.filterMap (freshRecord sys starttime pid) := by
        rw [List.filterMap_cons]
        cases freshRecord sys starttime pid entry <;> rfl
      have split : scanEntries sys starttime pid (entry :: entries) proc =
          (entry :: entries).filterMap (freshRecord sys starttime pid) ↔
          (scanEntry sys starttime pid entry proc).1 = freshRecord sys starttime pid entry ∧
          scanEntries sys starttime pid entries (scanEntry sys starttime pid entry proc).2 =
            entries.filterMap (freshRecord sys starttime pid) := by
        rw [fresh, scanEntries]
        constructor
        · intro same
          obtain ⟨head, tail⟩ := List.append_inj same lengths
          refine ⟨?_, tail⟩
          simpa using congrArg List.head? head
        · rintro ⟨head, tail⟩
          rw [head, tail]
      rw [split, single, ih next]
      constructor
      · rintro ⟨atHead, atTail⟩ before other rest same
        cases before with
        | nil =>
            obtain ⟨entryEq, _⟩ := List.cons.inj same
            exact entryEq ▸ atHead
        | cons first before =>
            obtain ⟨firstEq, restEq⟩ := List.cons.inj same
            subst first
            exact atTail before other rest restEq
      · intro everywhere
        exact ⟨everywhere [] entry entries rfl,
          fun before other rest same => everywhere (entry :: before) other rest (by rw [same]; rfl)⟩

def sampleSys : Sys := { info := ⟨4096, 100, 2⟩, hasIOStatistics := true }

def sampleProcess (path stat : String) : GlobEntry where
  path := bytes path
  files := {
    stat := .content (bytes stat)
    status := .content (bytes "Name:\tsh\nUid:\t1\t2\t0\t0\nGid:\t5\t0\t0\t0\n")
    io := .openFailed
    cmdline := some (bytes "sh")
    statForName := .content (bytes stat)
    fd := none
    limits := none
    attrCurrent := .openFailed
    uptimeMilli := 0
    readMilli := 7
  }

def sampleScan (procStat : String) (entries : List GlobEntry) : Scan where
  glob := some entries
  starttime := 0
  procStat := .content (bytes procStat)

def initProcess : GlobEntry :=
  sampleProcess "/proc/1"
    "1 (sh) S 0 1 1 0 -1 4 1 2 3 4 12 34 5 6 20 0 1 0 25 90 2 0 1 1 0 0 0 0 6 4 1 0 0 0 17 0"

/-- A process that exits after its io file was read: its cmdline cannot be opened. -/
def exitedProcess : GlobEntry where
  path := bytes "/proc/3"
  files := { initProcess.files with
    io := .content (bytes
      "rchar: 7\nwchar: 8\nsyscr: 9\nsyscw: 1\nread_bytes: 2\nwrite_bytes: 3\n")
    cmdline := none
  }

end SimpleProcessMonitor
