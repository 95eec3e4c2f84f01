import SimpleProcessMonitor.Library.Decimal
import SimpleProcessMonitor.ScanChecks

/-!
The stat file as the kernel writes it, and what the parsers get back from it: the name is
not escaped and may hold any delimiter of the line.
-/

namespace SimpleProcessMonitor

open CString Decimal

structure StatFields where
  pid : Int
  name : Bytes
  state : UInt8
  ppid : Int
  pgrp : Int
  session : Int
  ttyNr : Int
  tpgid : Int
  flags : Int
  minflt : Int
  cminflt : Int
  majflt : Int
  cmajflt : Int
  utime : Int
  stime : Int
  cutime : Int
  cstime : Int
  priority : Int
  nice : Int
  numThreads : Int
  itrealvalue : Int
  starttime : Int
  vsize : Int
  rss : Int
  others : List Int

namespace StatFields

variable (fields : StatFields)

/-- The numbers up to `rss`, those that the parser keeps with the kind it reads them as. -/
def columns : List Column := [
  (some .int, fields.ppid), (none, fields.pgrp), (none, fields.session), (none, fields.ttyNr),
  (none, fields.tpgid), (none, fields.flags), (none, fields.minflt), (none, fields.cminflt),
  (none, fields.majflt), (none, fields.cmajflt), (some .ulong, fields.utime),
  (some .ulong, fields.stime), (some .long, fields.cutime), (some .long, fields.cstime),
  (none, fields.priority), (none, fields.nice), (some .int, fields.numThreads),
  (none, fields.itrealvalue), (some .ulong, fields.starttime), (none, fields.vsize),
  (some .long, fields.rss)]

def moreColumns : List Column :=
  fields.others.map fun value => (none, value)

def beforeName : Bytes := signedDecimal fields.pid ++ [32]

def behindName : Bytes :=
  32 :: fields.state :: (fields.columns.flatMap columnText ++
    (fields.moreColumns.flatMap columnText ++ [10]))

/-- `pid (name) state ppid …` and a newline. -/
def render : Bytes :=
  fields.beforeName ++ 40 :: fields.name ++ 41 :: fields.behindName

end StatFields

/-- A line the kernel can write: the state is a letter, and the numbers are in the range of
their types. -/
structure StatLine extends StatFields where
  nameVisible : 0 ∉ name
  stateVisible : state ≠ 0
  stateLetter : state ≠ 41
  ranges : ∀ column ∈ toStatFields.columns, column.Fits
  fits : toStatFields.render.length < 8192

namespace StatLine

variable (line : StatLine)

theorem numbers_plain {columns : List Column} {byte : UInt8}
    (member : byte ∈ columns.flatMap columnText) : byte ≠ 0 ∧ byte ≠ 40 ∧ byte ≠ 41 := by
  rcases mem_columns member with rfl | rfl | digit
  · decide
  · decide
  · refine ⟨?_, ?_, ?_⟩ <;> · rintro rfl; cases digit

theorem beforeName_plain {byte : UInt8} (member : byte ∈ line.beforeName) :
    byte ≠ 0 ∧ byte ≠ 40 := by
  have inColumn : byte ∈ [((none, line.pid) : Column)].flatMap columnText := by
    simp only [StatFields.beforeName, List.mem_append, List.mem_singleton] at member
    simpa [columnText, or_comm] using member
  exact ⟨(numbers_plain inColumn).1, (numbers_plain inColumn).2.1⟩

theorem behindName_plain {byte : UInt8} (member : byte ∈ line.behindName) :
    byte ≠ 0 ∧ byte ≠ 41 := by
  simp only [StatFields.behindName, List.mem_cons, List.mem_append, List.not_mem_nil, or_false] at member
  rcases member with rfl | rfl | number | number | rfl
  · decide
  · exact ⟨line.stateVisible, line.stateLetter⟩
  · exact ⟨(numbers_plain number).1, (numbers_plain number).2.2⟩
  · exact ⟨(numbers_plain number).1, (numbers_plain number).2.2⟩
  · decide

theorem render_read : fileReadProc 8192 (.content line.render) = some line.render := by
  have fits := line.fits
  exact congrArg some (List.take_of_length_le (by omega))

theorem render_cString : cString line.render = line.render := by
  refine cString_of_visible fun member => ?_
  simp only [StatFields.render, List.mem_append, List.mem_cons] at member
  rcases member with (before | opening | named) | closing | behind
  · exact (line.beforeName_plain before).1 rfl
  · cases opening
  · exact line.nameVisible named
  · cases closing
  · exact (line.behindName_plain behind).1 rfl

theorem render_strrchr : strrchr 41 line.render = some (41 :: line.behindName) :=
  strrchr_last (fun member => (line.behindName_plain member).2 rfl) _

theorem sscanf_stat :
    sscanf statFormat (line.state :: (line.columns.flatMap columnText ++
        (line.moreColumns.flatMap columnText ++ [10]))) =
      [(line.state.toNat : Int), line.ppid, line.utime, line.stime, line.cutime, line.cstime,
        line.numThreads, line.starttime, line.rss] := by
  let skipped := (List.replicate 15 [Directive.space, Directive.skip]).flatten ++ [.space]
  have format : statFormat = .char :: (line.columns.flatMap columnDirectives ++ skipped) := rfl
  have stops : Stops (line.moreColumns.flatMap columnText ++ [10]) :=
    columns_stop line.moreColumns ⟨10, [], rfl, rfl⟩
  have none : sscanf skipped (line.moreColumns.flatMap columnText ++ [10]) = [] := by
    have few := sscanf_length skipped (line.moreColumns.flatMap columnText ++ [10])
    exact List.length_eq_zero_iff.mp (Nat.le_zero.mp few)
  rw [format, sscanf, sscanf_columns line.columns line.ranges skipped stops, none]
  rfl

theorem parseProcPidStat_render {files : ProcFiles} (written : files.stat = .content line.render)
    (data : ProcData) :
    parseProcPidStat files data = (true, { data with
      itemState := line.state.toNat
      ppid := line.ppid
      itemUtime := line.utime
      itemStime := line.stime
      itemCutime := line.cutime
      itemCstime := line.cstime
      itemThreads := line.numThreads
      itemStarttime := line.starttime
      itemRss := line.rss }) := by
  have behind : (41 :: line.behindName).drop 2 = line.state :: (line.columns.flatMap columnText ++
      (line.moreColumns.flatMap columnText ++ [10])) := rfl
  simp only [parseProcPidStat, written, line.render_read, line.render_cString, line.render_strrchr,
    behind, line.sscanf_stat]
  rfl

theorem statName_render : statName (.content line.render) = some line.name := by
  have cut : line.render.take (line.render.length - (41 :: line.behindName).length) =
      line.beforeName ++ 40 :: line.name := by
    have whole : line.render = (line.beforeName ++ 40 :: line.name) ++ 41 :: line.behindName := rfl
    rw [whole, List.length_append, Nat.add_sub_cancel, List.take_left]
  have noParen : 40 ∉ line.beforeName := fun member => (line.beforeName_plain member).2 rfl
  simp only [statName, line.render_read, line.render_cString, line.render_strrchr, cut,
    strchr_first noParen, List.drop_one, List.tail_cons]

end StatLine

/-- The name comes from the stat file for a thread, and for a process without a visible
command line. -/
def NameFromStat (files : ProcFiles) (proc : ProcT) : Prop :=
  proc.name = [] ∧ (proc.data.tid ≠ -1 ∨
    ∃ content, files.cmdline = some content ∧ trim (readCmdline content []) = [])

theorem parseProcPidCmdline_fallback {files : ProcFiles} {proc : ProcT}
    (fallback : NameFromStat files proc) {procname : Bytes}
    (found : statName files.statForName = some procname) :
    parseProcPidCmdline files proc = (true, { proc with name := procname }) := by
  obtain ⟨name, data⟩ := proc
  obtain ⟨empty, thread | ⟨content, opened, blankLine⟩⟩ := fallback
  · simp only at empty thread
    simp [parseProcPidCmdline, empty, thread, found]
  · simp only at empty
    by_cases thread : data.tid = -1
    · simp [parseProcPidCmdline, empty, thread, opened, blankLine, found]
    · simp [parseProcPidCmdline, empty, thread, found]

theorem stat_roundTrip (line : StatLine) (files : ProcFiles) :
    (files.stat = .content line.render → ∀ data, parseProcPidStat files data = (true, { data with
      itemState := line.state.toNat
      ppid := line.ppid
      itemUtime := line.utime
      itemStime := line.stime
      itemCutime := line.cutime
      itemCstime := line.cstime
      itemThreads := line.numThreads
      itemStarttime := line.starttime
      itemRss := line.rss })) ∧
    (files.statForName = .content line.render → ∀ proc, NameFromStat files proc →
      parseProcPidCmdline files proc = (true, { proc with name := line.name })) := by
  refine ⟨fun written data => line.parseProcPidStat_render written data, ?_⟩
  intro written proc fallback
  exact parseProcPidCmdline_fallback fallback (by rw [written, line.statName_render])

def trickyFields : StatFields where
  pid := 7
  name := bytes ") R 1 ("
  state := 83
  ppid := -1
  pgrp := 7
  session := 7
  ttyNr := 0
  tpgid := -1
  flags := 4194560
  minflt := 1
  cminflt := 2
  majflt := 3
  cmajflt := 4
  utime := 18446744073709551615
  stime := 34
  cutime := -5
  cstime := 6
  priority := 20
  nice := -10
  numThreads := 3
  itrealvalue := 0
  starttime := 25
  vsize := 90
  rss := 12
  others := [1, 0, 17]

def trickyLine : StatLine where
  toStatFields := trickyFields
  nameVisible := by decide
  stateVisible := by decide
  stateLetter := by decide
  ranges := by simp [StatFields.columns, Column.Fits, InRange, trickyFields]
  fits := by decide +kernel

/-- The stat file of a process with a blank command line. -/
def trickyFiles : ProcFiles :=
  { initProcess.files with
    stat := .content trickyLine.render
    cmdline := some [0, 32]
    statForName := .content trickyLine.render }

theorem stat_roundTrip_sample :
    parseProcPidStat trickyFiles {} =
      (true, {
        itemState := 83, ppid := -1, itemUtime := 18446744073709551615, itemStime := 34,
        itemCutime := -5, itemCstime := 6, itemThreads := 3, itemStarttime := 25, itemRss := 12 }) ∧
    parseProcPidCmdline trickyFiles {} = (true, { name := bytes ") R 1 (" }) := by
  obtain ⟨numbers, name⟩ := stat_roundTrip trickyLine trickyFiles
  exact ⟨numbers rfl {}, name rfl {} ⟨rfl, Or.inr ⟨[0, 32], rfl, by decide⟩⟩⟩

end SimpleProcessMonitor
