import SimpleProcessMonitor.MonitorCore

/-!
The reports as sequences of messages: what a reader that splits them at the separators
gets back, for every command line and with messages cut off at the buffer.
-/

namespace SimpleProcessMonitor

open CString Decimal

/-- The return value of `snprintf` is an `int`. -/
def Formats (text : Bytes) : Prop :=
  text.length < 2 ^ 31

def firstWord (message : Bytes) : Bytes :=
  message.takeWhile (· != 32)

theorem firstWord_append {word : Bytes} (noSpace : 32 ∉ word) (rest : Bytes) :
    firstWord (word ++ 32 :: rest) = word := by
  have passed : ∀ byte ∈ word, (byte != 32) = true := by
    intro byte member
    exact bne_iff_ne.mpr fun same => noSpace (same ▸ member)
  rw [firstWord, List.takeWhile_append_of_pos passed]
  simp

/-- A message begins with its first word and the space behind it, cut off or not. -/
theorem formatAndLog_word {text word rest : Bytes} (split : text = word ++ 32 :: rest)
    (short : word.length ≤ 4000) (formats : Formats text) :
    ∃ behind, formatAndLog text = word ++ 32 :: behind := by
  have fits : ¬2 ^ 31 ≤ text.length := Nat.not_le.mpr formats
  rw [formatAndLog, if_neg fits, split]
  split
  · refine ⟨rest.take (4094 - word.length) ++ bytes " [TRUNCATED]", ?_⟩
    obtain ⟨room, roomEq⟩ : ∃ room, 4095 - word.length = room + 1 := ⟨4094 - word.length, by omega⟩
    have room' : 4094 - word.length = room := by omega
    rw [List.take_append, List.take_of_length_le (by omega), roomEq, List.take_succ_cons, room']
    simp
  · exact ⟨rest, rfl⟩

theorem formatAndLog_length (text : Bytes) : (formatAndLog text).length ≤ 4107 := by
  have marker : (bytes " [TRUNCATED]").length = 12 := by decide
  have failure : (bytes "formatAndLog: snprintf formatting error").length = 39 := by decide
  unfold formatAndLog
  split
  · omega
  · split
    · rw [List.length_append, List.length_take, marker]
      omega
    · omega

theorem separator_noSpace : 32 ∉ separator := by decide

theorem firstWord_message {text word rest : Bytes} (split : text = word ++ 32 :: rest)
    (noSpace : 32 ∉ word) (short : word.length ≤ 4000) (formats : Formats text) :
    firstWord (formatAndLog text) = word ∧ formatAndLog text ≠ separator := by
  obtain ⟨behind, message⟩ := formatAndLog_word split short formats
  refine ⟨by rw [message, firstWord_append noSpace], ?_⟩
  intro same
  have inside : 32 ∈ separator := by
    rw [← same, message]
    simp
  exact separator_noSpace inside

/-! The sections between the separators. -/

def sectioned (header : Bytes) (sections : List (List Bytes)) : List Bytes :=
  [header, separator] ++ (sections.flatMap fun messages => messages ++ [separator]) ++ [bytes "\n"]

theorem sectioned_splitOn {header : Bytes} (headerClean : header ≠ separator)
    {sections : List (List Bytes)} (clean : ∀ messages ∈ sections, separator ∉ messages) :
    (sectioned header sections).splitOn separator = [header] :: (sections ++ [[bytes "\n"]]) := by
  have newline : separator ∉ [bytes "\n"] := by decide
  have behind : ((sections.flatMap fun messages => messages ++ [separator]) ++ [bytes "\n"]).splitOn
      separator = sections ++ [[bytes "\n"]] := by
    induction sections with
    | nil => exact List.splitOn_eq_singleton newline
    | cons messages sections ih =>
        have next := List.splitOn_append_cons_self_of_not_mem (clean messages List.mem_cons_self)
          ((sections.flatMap fun messages => messages ++ [separator]) ++ [bytes "\n"])
        rw [ih fun other member => clean other (List.mem_cons_of_mem _ member)] at next
        simpa using next
  have first : separator ∉ [header] := by
    intro member
    exact headerClean (List.mem_singleton.mp member).symm
  have whole := List.splitOn_append_cons_self_of_not_mem first
    ((sections.flatMap fun messages => messages ++ [separator]) ++ [bytes "\n"])
  rw [behind] at whole
  exact whole

theorem sectioned_length {header : Bytes} (short : header.length ≤ 4107)
    {sections : List (List Bytes)}
    (shorter : ∀ messages ∈ sections, ∀ message ∈ messages, message.length ≤ 4107) :
    ∀ message ∈ sectioned header sections, message.length ≤ 4107 := by
  have separatorShort : separator.length ≤ 4107 := by decide
  have newlineShort : (bytes "\n").length ≤ 4107 := by decide
  intro message member
  rcases List.mem_append.mp member with front | last
  · rcases List.mem_append.mp front with opening | listed
    · rcases List.mem_pair.mp opening with rfl | rfl
      · exact short
      · exact separatorShort
    · obtain ⟨messages, found, inside⟩ := List.mem_flatMap.mp listed
      rcases List.mem_append.mp inside with own | closing
      · exact shorter messages found message own
      · exact List.mem_singleton.mp closing ▸ separatorShort
  · exact List.mem_singleton.mp last ▸ newlineShort

structure Printable (info : ProcessOrThreadInfo) : Prop where
  pid : InRange .int info.pid
  cpu : Formats (cpuText info)
  ram : Formats (ramText info)

theorem Printable.cpuMessage {info : ProcessOrThreadInfo} (printable : Printable info) :
    firstWord (formatAndLog (cpuText info)) = signedDecimal info.pid ∧
      formatAndLog (cpuText info) ≠ separator := by
  have split : cpuText info = signedDecimal info.pid ++ 32 :: (32 :: (fixed1 info.cpuUsage ++
      (bytes "%  " ++ (cString info.cmdline ++ bytes "\n")))) := by
    simp only [cpuText, List.append_assoc]
    rfl
  have short := signedDecimal_short printable.pid
  exact firstWord_message split (signedDecimal_noSpace info.pid) (by omega) printable.cpu

theorem Printable.ramMessage {info : ProcessOrThreadInfo} (printable : Printable info) :
    firstWord (formatAndLog (ramText info)) = signedDecimal info.pid ∧
      formatAndLog (ramText info) ≠ separator := by
  have split : ramText info = signedDecimal info.pid ++ 32 :: (32 :: (fixed1
      (mebibytes info.ramUsage) ++ (bytes " MiB  " ++ (cString info.cmdline ++ bytes "\n")))) := by
    simp only [ramText, List.append_assoc]
    rfl
  have short := signedDecimal_short printable.pid
  exact firstWord_message split (signedDecimal_noSpace info.pid) (by omega) printable.ram

/-! The sections of the reports, as messages and as what is read back from them. -/

section Sections

variable {α β : Type} {pid : Int} {infos : List ProcessOrThreadInfo}
  {threadInfos : List (List ProcessOrThreadInfo)}

def cpuSections (pid : Int) (infos : List ProcessOrThreadInfo)
    (threadInfos : List (List ProcessOrThreadInfo)) (shown : ProcessOrThreadInfo → α) :
    List (List α) :=
  if pid = allProcesses then
    infos.zipIdx.flatMap fun process =>
      [[shown process.1], (threadInfos.getD process.2 []).map shown]
  else infos.map fun info => [shown info]

def ramSections (pid : Int) (infos : List ProcessOrThreadInfo)
    (shown : ProcessOrThreadInfo → α) : List (List α) :=
  (if pid = allProcesses then infos else infos.take 1).map fun info => [shown info]

theorem mem_slot {info : ProcessOrThreadInfo} {index : Nat}
    (member : info ∈ threadInfos.getD index []) : ∃ slot ∈ threadInfos, info ∈ slot := by
  rw [List.getD_eq_getElem?_getD] at member
  cases found : threadInfos[index]? with
  | none =>
      rw [found] at member
      cases member
  | some slot =>
      rw [found] at member
      exact ⟨slot, List.mem_of_getElem? found, member⟩

theorem mem_cpuSections {shown : ProcessOrThreadInfo → α} {messages : List α} {message : α}
    (member : messages ∈ cpuSections pid infos threadInfos shown) (inside : message ∈ messages) :
    ∃ info, (info ∈ infos ∨ ∃ slot ∈ threadInfos, info ∈ slot) ∧ message = shown info := by
  unfold cpuSections at member
  split at member
  · obtain ⟨process, listed, found⟩ := List.mem_flatMap.mp member
    rcases List.mem_pair.mp found with rfl | rfl
    · exact ⟨process.1, Or.inl (List.fst_mem_of_mem_zipIdx listed), List.mem_singleton.mp inside⟩
    · obtain ⟨info, inSlot, rfl⟩ := List.mem_map.mp inside
      exact ⟨info, Or.inr (mem_slot inSlot), rfl⟩
  · obtain ⟨info, listed, rfl⟩ := List.mem_map.mp member
    exact ⟨info, Or.inl listed, List.mem_singleton.mp inside⟩

theorem mem_ramSections {shown : ProcessOrThreadInfo → α} {messages : List α} {message : α}
    (member : messages ∈ ramSections pid infos shown) (inside : message ∈ messages) :
    ∃ info ∈ infos, message = shown info := by
  obtain ⟨info, listed, rfl⟩ := List.mem_map.mp member
  refine ⟨info, ?_, List.mem_singleton.mp inside⟩
  split at listed
  · exact listed
  · exact List.mem_of_mem_take listed

theorem cpuSections_map {shown : ProcessOrThreadInfo → α} {read : α → β}
    {other : ProcessOrThreadInfo → β} (own : ∀ info ∈ infos, read (shown info) = other info)
    (threads : ∀ slot ∈ threadInfos, ∀ info ∈ slot, read (shown info) = other info) :
    (cpuSections pid infos threadInfos shown).map (List.map read) =
      cpuSections pid infos threadInfos other := by
  unfold cpuSections
  split
  · rw [List.map_flatMap]
    apply List.flatMap_congr
    intro process member
    have slot : ((threadInfos.getD process.2 []).map shown).map read =
        (threadInfos.getD process.2 []).map other := by
      rw [List.map_map]
      refine List.map_congr_left fun info inSlot => ?_
      obtain ⟨slot, listed, inside⟩ := mem_slot inSlot
      exact threads slot listed info inside
    simp only [List.map_cons, List.map_nil, slot, own process.1 (List.fst_mem_of_mem_zipIdx member)]
  · rw [List.map_map]
    apply List.map_congr_left
    intro info member
    simp [own info member]

theorem ramSections_map {shown : ProcessOrThreadInfo → α} {read : α → β}
    {other : ProcessOrThreadInfo → β} (own : ∀ info ∈ infos, read (shown info) = other info) :
    (ramSections pid infos shown).map (List.map read) = ramSections pid infos other := by
  unfold ramSections
  rw [List.map_map]
  apply List.map_congr_left
  intro info member
  have listed : info ∈ infos := by
    split at member
    · exact member
    · exact List.mem_of_mem_take member
  simp [own info listed]

end Sections

theorem logTopCpu_sectioned (pid : Int) (infos : List ProcessOrThreadInfo)
    (threadInfos : List (List ProcessOrThreadInfo)) :
    logTopCpu pid infos threadInfos = sectioned (formatAndLog (cpuHeader pid infos.length))
      (cpuSections pid infos threadInfos fun info => formatAndLog (cpuText info)) := by
  unfold logTopCpu sectioned cpuSections
  split
  · simp only [List.flatMap_assoc]
    simp
  · have plain := congrArg (List.flatMap fun info => [formatAndLog (cpuText info), separator])
      (List.zipIdx_map_fst 0 infos)
    rw [List.flatMap_map] at plain
    simp only [List.append_nil]
    rw [plain, List.flatMap_map]
    rfl

theorem logTopRam_sectioned (pid : Int) (memorySize : Nat) (infos : List ProcessOrThreadInfo) :
    logTopRam pid memorySize infos = sectioned (formatAndLog (ramHeader pid memorySize infos.length))
      (ramSections pid infos fun info => formatAndLog (ramText info)) := by
  unfold logTopRam sectioned ramSections
  rw [List.flatMap_map]
  rfl

theorem cpuSections_read (pid : Int) {infos : List ProcessOrThreadInfo}
    {threadInfos : List (List ProcessOrThreadInfo)} (own : ∀ info ∈ infos, Printable info)
    (threads : ∀ slot ∈ threadInfos, ∀ info ∈ slot, Printable info) :
    (cpuSections pid infos threadInfos fun info => formatAndLog (cpuText info)).map
        (List.map firstWord) =
      cpuSections pid infos threadInfos (fun info => signedDecimal info.pid) ∧
    ∀ messages ∈ cpuSections pid infos threadInfos (fun info => formatAndLog (cpuText info)),
      separator ∉ messages := by
  refine ⟨cpuSections_map (fun info member => (own info member).cpuMessage.1)
    fun slot listed info member => (threads slot listed info member).cpuMessage.1, ?_⟩
  intro messages member inside
  obtain ⟨info, listed | ⟨slot, listed, inSlot⟩, same⟩ := mem_cpuSections member inside
  · exact (own info listed).cpuMessage.2 same.symm
  · exact (threads slot listed info inSlot).cpuMessage.2 same.symm

theorem ramSections_read (pid : Int) {infos : List ProcessOrThreadInfo}
    (own : ∀ info ∈ infos, Printable info) :
    (ramSections pid infos fun info => formatAndLog (ramText info)).map (List.map firstWord) =
      ramSections pid infos (fun info => signedDecimal info.pid) ∧
    ∀ messages ∈ ramSections pid infos (fun info => formatAndLog (ramText info)),
      separator ∉ messages := by
  refine ⟨ramSections_map fun info member => (own info member).ramMessage.1, ?_⟩
  intro messages member inside
  obtain ⟨info, listed, same⟩ := mem_ramSections member inside
  exact (own info listed).ramMessage.2 same.symm

theorem cpuSections_length (pid : Int) (infos : List ProcessOrThreadInfo)
    (threadInfos : List (List ProcessOrThreadInfo)) :
    ∀ messages ∈ cpuSections pid infos threadInfos (fun info => formatAndLog (cpuText info)),
      ∀ message ∈ messages, message.length ≤ 4107 := by
  intro messages member message inside
  obtain ⟨info, -, rfl⟩ := mem_cpuSections member inside
  exact formatAndLog_length _

theorem ramSections_length (pid : Int) (infos : List ProcessOrThreadInfo) :
    ∀ messages ∈ ramSections pid infos (fun info => formatAndLog (ramText info)),
      ∀ message ∈ messages, message.length ≤ 4107 := by
  intro messages member message inside
  obtain ⟨info, -, rfl⟩ := mem_ramSections member inside
  exact formatAndLog_length _

theorem cpuHeader_message {pid : Int} {count : Nat} (formats : Formats (cpuHeader pid count)) :
    firstWord (formatAndLog (cpuHeader pid count)) = bytes "Top" ∧
      formatAndLog (cpuHeader pid count) ≠ separator := by
  have split : ∃ rest, cpuHeader pid count = bytes "Top" ++ 32 :: rest := by
    unfold cpuHeader
    split
    · exact ⟨decimal count ++ bytes " of system processes' CPU usages\n",
        List.append_assoc _ _ _⟩
    · refine ⟨decimal count ++ (bytes " of process pid " ++ (signedDecimal pid ++
        bytes "'s threads' CPU usages\n")), ?_⟩
      simp only [List.append_assoc]
      rfl
  obtain ⟨rest, splitEq⟩ := split
  exact firstWord_message splitEq (by decide) (by decide) formats

theorem ramHeader_message {pid : Int} {memorySize count : Nat}
    (formats : Formats (ramHeader pid memorySize count)) :
    firstWord (formatAndLog (ramHeader pid memorySize count)) =
        (if pid = allProcesses then bytes "Top" else bytes "Process") ∧
      formatAndLog (ramHeader pid memorySize count) ≠ separator := by
  unfold ramHeader at formats ⊢
  split at formats
  · rename_i all
    rw [if_pos all, if_pos all]
    apply firstWord_message _ (by decide) (by decide) formats
    · exact decimal count ++ (bytes " processes' RAM usages (total " ++
        (fixed1 (mebibytes memorySize) ++ bytes " MiB)\n"))
    · simp only [List.append_assoc]
      rfl
  · rename_i single
    rw [if_neg single, if_neg single]
    apply firstWord_message _ (by decide) (by decide) formats
    · exact bytes "pid " ++ (signedDecimal pid ++ (bytes "'s RAM usage (total " ++
        (fixed1 (mebibytes memorySize) ++ bytes " MiB)\n")))
    · simp only [List.append_assoc]
      rfl

theorem logTopCpu_read (pid : Int) {infos : List ProcessOrThreadInfo}
    {threadInfos : List (List ProcessOrThreadInfo)} (own : ∀ info ∈ infos, Printable info)
    (threads : ∀ slot ∈ threadInfos, ∀ info ∈ slot, Printable info)
    (formats : Formats (cpuHeader pid infos.length)) :
    ((logTopCpu pid infos threadInfos).splitOn separator).map (List.map firstWord) =
      [bytes "Top"] :: (cpuSections pid infos threadInfos (fun info => signedDecimal info.pid) ++
        [[bytes "\n"]]) := by
  obtain ⟨word, clean⟩ := cpuHeader_message formats
  obtain ⟨read, separate⟩ := cpuSections_read pid own threads
  have newline : firstWord (bytes "\n") = bytes "\n" := by decide
  rw [logTopCpu_sectioned, sectioned_splitOn clean separate]
  simp only [List.map_cons, List.map_append, List.map_nil, read, word, newline]

theorem logTopRam_read (pid : Int) {memorySize : Nat} {infos : List ProcessOrThreadInfo}
    (own : ∀ info ∈ infos, Printable info)
    (formats : Formats (ramHeader pid memorySize infos.length)) :
    ((logTopRam pid memorySize infos).splitOn separator).map (List.map firstWord) =
      [if pid = allProcesses then bytes "Top" else bytes "Process"] ::
        (ramSections pid infos (fun info => signedDecimal info.pid) ++ [[bytes "\n"]]) := by
  obtain ⟨word, clean⟩ := ramHeader_message formats
  obtain ⟨read, separate⟩ := ramSections_read pid own
  have newline : firstWord (bytes "\n") = bytes "\n" := by decide
  rw [logTopRam_sectioned, sectioned_splitOn clean separate]
  simp only [List.map_cons, List.map_append, List.map_nil, read, word, newline]

/-- Split at the messages that are separators, a report gives back the ids of all that was
printed, processes each with their threads behind them; no command line adds a message or makes
one a separator. -/
theorem reports_read (pid : Int) (memorySize : Nat) {infos : List ProcessOrThreadInfo}
    {threadInfos : List (List ProcessOrThreadInfo)} (own : ∀ info ∈ infos, Printable info)
    (threads : ∀ slot ∈ threadInfos, ∀ info ∈ slot, Printable info)
    (cpuFormats : Formats (cpuHeader pid infos.length))
    (ramFormats : Formats (ramHeader pid memorySize infos.length)) :
    ((logTopCpu pid infos threadInfos).splitOn separator).map (List.map firstWord) =
        [bytes "Top"] :: (cpuSections pid infos threadInfos (fun info => signedDecimal info.pid) ++
          [[bytes "\n"]]) ∧
      ((logTopRam pid memorySize infos).splitOn separator).map (List.map firstWord) =
        [if pid = allProcesses then bytes "Top" else bytes "Process"] ::
          (ramSections pid infos (fun info => signedDecimal info.pid) ++ [[bytes "\n"]]) ∧
      ∀ message ∈ logTopCpu pid infos threadInfos ++ logTopRam pid memorySize infos,
        message.length ≤ 4107 := by
  refine ⟨logTopCpu_read pid own threads cpuFormats, logTopRam_read pid own ramFormats, ?_⟩
  intro message member
  rcases List.mem_append.mp member with cpu | ram
  · rw [logTopCpu_sectioned] at cpu
    exact sectioned_length (formatAndLog_length _) (cpuSections_length pid infos threadInfos)
      message cpu
  · rw [logTopRam_sectioned] at ram
    exact sectioned_length (formatAndLog_length _) (ramSections_length pid infos) message ram

/-- A command line that imitates a report, too long for the buffer. -/
def longInfo : ProcessOrThreadInfo where
  pid := 7
  threadNum := 1
  cpuUsage := 1 / 4
  ramUsage := 5
  cmdline := separator ++ List.replicate 4096 45

theorem longInfo_printable : Printable longInfo where
  pid := ⟨by decide, by decide⟩
  cpu := by
    unfold Formats
    decide +kernel
  ram := by
    unfold Formats
    decide +kernel

theorem reports_read_sample :
    ((logTopCpu allProcesses [longInfo] [[longInfo, longInfo]]).splitOn separator).map
        (List.map firstWord) =
      [[bytes "Top"], [bytes "7"], [bytes "7", bytes "7"], [bytes "\n"]] := by
  have own : ∀ info ∈ [longInfo], Printable info := by
    simpa using longInfo_printable
  have threads : ∀ slot ∈ [[longInfo, longInfo]], ∀ info ∈ slot, Printable info := by
    simpa using longInfo_printable
  exact (reports_read allProcesses 0 own threads (by unfold Formats; decide +kernel)
    (by unfold Formats; decide +kernel)).1

end SimpleProcessMonitor
