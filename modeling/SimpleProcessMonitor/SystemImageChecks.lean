import SimpleProcessMonitor.CpuLineChecks
import SimpleProcessMonitor.Library.Rows
import SimpleProcessMonitor.MemoryChecks
import SimpleProcessMonitor.ScanImageChecks

/-!
`update_system_info` on the files as the kernel writes them: the load averages, the memory
and swap counters, the CPU line and the file descriptors.
-/

namespace SimpleProcessMonitor

open CString Decimal

/-- A load average is printed with two decimals. -/
structure LoadAverage where
  whole : Nat
  hundredths : Nat
  small : hundredths < 100

def LoadAverage.text (load : LoadAverage) : Bytes :=
  decimal load.whole ++ 46 :: (decimal (load.hundredths / 10) ++ decimal (load.hundredths % 10))

def LoadAverage.value (load : LoadAverage) : ℚ :=
  load.whole + load.hundredths / 100

def memoryKeys : List String :=
  ["MemTotal:", "MemAvailable:", "MemFree:", "Buffers:", "Cached:", "SReclaimable:", "SwapTotal:",
    "SwapFree:"]

/-- The files of one update. The counters of `/proc/meminfo` that the program reads stand in
the part that fits its buffer. -/
structure SystemImage where
  first : LoadAverage
  second : LoadAverage
  third : LoadAverage
  tasks : Bytes
  meminfo : List Row
  meminfoTail : Bytes
  cpus : List CpuCounter
  following : Bytes
  allocated : Int
  unused : Int
  maximum : Int
  loadavgFits : (first.text ++ 32 :: (second.text ++ 32 :: (third.text ++ 32 :: tasks))).length < bufferStrlen
  tasksVisible : 0 ∉ tasks
  meminfoPlain : ∀ row ∈ meminfo, row.Plain
  meminfoRange : ∀ row ∈ meminfo, InRange .ulong row.value
  meminfoFits : (rowsText meminfo).length < 2048
  meminfoKeys : ∀ key ∈ memoryKeys, strstr (bytes key) meminfoTail = none
  accepted : Accepted cpus.length
  cpusFit : (cpuLine (cpus.take 10)).length ≤ 8191
  stop : NoDigit following
  absent : cpus.length < 10 → scanInt .ulong following = none
  allocatedRange : InRange .long allocated
  unusedRange : InRange .long unused
  maximumRange : InRange .long maximum

namespace SystemImage

variable (image : SystemImage)

def loadavg : Bytes :=
  image.first.text ++ 32 :: (image.second.text ++ 32 :: (image.third.text ++ 32 :: image.tasks))

def fileNrLine : Bytes :=
  signedDecimal image.allocated ++ 9 :: (signedDecimal image.unused ++
    9 :: signedDecimal image.maximum)

def fileNr : Bytes :=
  image.fileNrLine ++ [10]

def reading : CpuUsageTime :=
  usageOf (image.cpus.map CpuCounter.value)

def counter (key : String) : Option Nat :=
  lookup (bytes key) image.meminfo

/-- The files under their names. Where the unused memory has to be summed up, the kernel has no
ZFS, whose cache would be a part of it. -/
structure Presented (visit : SystemVisit) : Prop where
  loadavg : visit.loadavg.file (bytes "/proc/loadavg") = .content image.loadavg
  meminfo : visit.meminfo.file (bytes "/proc/meminfo") =
    .content (rowsText image.meminfo ++ image.meminfoTail)
  arcstats : image.counter "MemAvailable:" = none →
    streamGives (visit.arcstats.stream (bytes "/proc/spl/kstat/zfs/arcstats")) none
  stat : visit.stat.file (bytes "/proc/stat") = .content (cpuLine image.cpus ++ image.following)
  fileNr : visit.fileNr.file (bytes "/proc/sys/fs/file-nr") = .content image.fileNr

/-- The memory that is not in use, in KiB; an old kernel does not sum it up. -/
def unusedKib : Option Nat :=
  match image.counter "MemAvailable:" with
  | some available => some available
  | none => (image.counter "MemFree:").map fun free =>
      free + (image.counter "Buffers:").getD 0 + (image.counter "Cached:").getD 0 +
        (image.counter "SReclaimable:").getD 0

/-- The counters are there, and agree with each other. -/
structure Memory (total unused swapTotal swapFree : Nat) : Prop where
  totalRead : image.counter "MemTotal:" = some total
  unusedRead : image.unusedKib = some unused
  swapTotalRead : image.counter "SwapTotal:" = some swapTotal
  swapFreeRead : image.counter "SwapFree:" = some swapFree
  within : unused ≤ total
  fits : total * 1024 < 2 ^ 64
  swapWithin : swapFree ≤ swapTotal
  swapFits : swapTotal * 1024 < 2 ^ 64

end SystemImage

/-! The load averages. -/

theorem decimal_digit {value : Nat} (small : value < 10) :
    ∃ byte : UInt8, decimal value = [byte] ∧ byte.toNat - 48 = value := by
  refine ⟨UInt8.ofNat (Nat.digitChar value).toNat, ?_, ?_⟩
  · rw [decimal_eq, if_pos small, Nat.mod_eq_of_lt small, List.nil_append]
  · rw [digitChar_byte small]
    omega

theorem digitsValue_load (load : LoadAverage) :
    digitsValue (decimal load.whole ++
        (decimal (load.hundredths / 10) ++ decimal (load.hundredths % 10))) =
      100 * load.whole + load.hundredths := by
  have small := load.small
  obtain ⟨tens, tensEq, tensValue⟩ := decimal_digit (show load.hundredths / 10 < 10 by omega)
  obtain ⟨ones, onesEq, onesValue⟩ := decimal_digit (show load.hundredths % 10 < 10 by omega)
  rw [tensEq, onesEq, ← List.append_assoc, digitsValue_append, digitsValue_append, decimal_value,
    tensValue, onesValue]
  omega

theorem scanDigits_append {digits : Bytes} (all : ∀ byte ∈ digits, isdigit byte = true)
    {tail : Bytes} (stop : NoDigit tail) : scanDigits (digits ++ tail) = (digits, tail) := by
  rw [scanDigits, takeWhile_digits all stop, dropWhile_digits all stop]

theorem readSign_digits {digits : Bytes} (nonempty : digits ≠ [])
    (all : ∀ byte ∈ digits, isdigit byte = true) (tail : Bytes) :
    readSign (skipSpace (digits ++ tail)) = (false, digits ++ tail) := by
  cases digits with
  | nil => exact absurd rfl nonempty
  | cons first digits =>
      have digit := all first List.mem_cons_self
      rw [List.cons_append, skipSpace_cons (isspace_digit digit), readSign_digit digit]

theorem scanDouble_load (load : LoadAverage) {gap : Bytes}
    (blank : ∀ byte ∈ gap, isspace byte = true) (rest : Bytes) :
    scanDouble (gap ++ (load.text ++ 32 :: rest)) = some (load.value, 32 :: rest) := by
  let fraction := decimal (load.hundredths / 10) ++ decimal (load.hundredths % 10)
  have small := load.small
  have fractionDigits : ∀ byte ∈ fraction, isdigit byte = true := by
    intro byte member
    rcases List.mem_append.mp member with tens | ones
    · exact decimal_digits _ byte tens
    · exact decimal_digits _ byte ones
  have fractionLength : fraction.length = 2 := by
    obtain ⟨tens, tensEq, _⟩ := decimal_digit (show load.hundredths / 10 < 10 by omega)
    obtain ⟨ones, onesEq, _⟩ := decimal_digit (show load.hundredths % 10 < 10 by omega)
    simp [fraction, tensEq, onesEq]
  have text : load.text ++ 32 :: rest = decimal load.whole ++ 46 :: (fraction ++ 32 :: rest) := by
    simp [LoadAverage.text, fraction]
  have sign := readSign_digits (decimal_nonempty load.whole) (decimal_digits load.whole)
    (46 :: (fraction ++ 32 :: rest))
  have whole := scanDigits_append (decimal_digits load.whole)
    (noDigit_cons (show isdigit 46 = false from rfl) (fraction ++ 32 :: rest))
  have behind := scanDigits_append fractionDigits (noDigit_cons (show isdigit 32 = false from rfl) rest)
  have nonempty : decimal load.whole ++ fraction ≠ [] := by
    simp [decimal_nonempty]
  have value := digitsValue_load load
  change digitsValue (decimal load.whole ++ fraction) = _ at value
  simp only [scanDouble, skipSpace_append blank, text, sign, whole, behind, nonempty, if_false, value,
    fractionLength, scanExponent]
  have magnitude : ((100 * load.whole + load.hundredths : Nat) : ℚ) * 10 ^ ((0 : Int) - (2 : Nat)) =
      load.value := by
    norm_num [LoadAverage.value, zpow_neg]
    ring
  simpa using magnitude

theorem loadText_visible (load : LoadAverage) : 0 ∉ load.text := by
  intro member
  simp only [LoadAverage.text, List.mem_append, List.mem_cons] at member
  rcases member with whole | dot | tens | ones
  · exact (decimal_plain whole).1 rfl
  · cases dot
  · exact (decimal_plain tens).1 rfl
  · exact (decimal_plain ones).1 rfl

namespace SystemImage

variable {image : SystemImage} {visit : SystemVisit}

theorem getloadavgSysdep_image (image : SystemImage) :
    getloadavgSysdep (.content image.loadavg) =
      some (image.first.value, image.second.value, image.third.value) := by
  have fits : image.loadavg.length < bufferStrlen := image.loadavgFits
  have visible : 0 ∉ image.loadavg := by
    intro member
    simp only [loadavg, List.mem_append, List.mem_cons] at member
    rcases member with first | space | second | space | third | space | tasks
    · exact loadText_visible _ first
    · cases space
    · exact loadText_visible _ second
    · cases space
    · exact loadText_visible _ third
    · cases space
    · exact image.tasksVisible tasks
  have read : fileReadProc bufferStrlen (.content image.loadavg) = some image.loadavg :=
    congrArg some (List.take_of_length_le (by omega))
  have noGap : ∀ byte ∈ ([] : Bytes), isspace byte = true := List.forall_mem_nil _
  have space : ∀ byte ∈ [(32 : UInt8)], isspace byte = true := List.forall_mem_singleton.mpr rfl
  have first := scanDouble_load image.first noGap
    (image.second.text ++ 32 :: (image.third.text ++ 32 :: image.tasks))
  have second := scanDouble_load image.second space (image.third.text ++ 32 :: image.tasks)
  have third := scanDouble_load image.third space image.tasks
  rw [List.nil_append] at first
  rw [List.singleton_append] at second third
  simp only [getloadavgSysdep, read, Option.bind_eq_bind, Option.bind_some, cString_of_visible visible]
  rw [loadavg, first]
  simp only [Option.bind_some, second, third, Option.pure_def]

/-! The memory. -/

theorem scanMemoryKey_rows {key : String} (isKey : Key (bytes key)) {rows : List Row}
    (plain : ∀ row ∈ rows, row.Plain) (range : ∀ row ∈ rows, InRange .ulong row.value)
    {rest : Bytes} (absent : strstr (bytes key) rest = none) :
    scanMemoryKey key (rowsText rows ++ rest) = lookup (bytes key) rows := by
  rw [scanMemoryKey]
  rcases strstr_rows isKey plain rest with ⟨row, member, found, after, search⟩ | ⟨missing, search⟩
  · rw [search]
    simp only [List.drop_left, sscanf, (plain row member).scanInt (range row member), Int.toNat_natCast,
      found]
  · rw [search, absent, missing]

theorem scanMemoryKey_image (image : SystemImage) {key : String} (listed : key ∈ memoryKeys) :
    scanMemoryKey key (cString ((rowsText image.meminfo ++ image.meminfoTail).take (2048 - 1))) =
      image.counter key := by
  have isKey : ∀ key ∈ memoryKeys, Key (bytes key) := by
    have all : ∀ key ∈ memoryKeys, (bytes key).getLast? = some 58 ∧ 32 ∉ bytes key ∧
        9 ∉ bytes key ∧ 10 ∉ bytes key := by decide
    intro key member
    obtain ⟨ends, noSpace, noTab, noNewline⟩ := all key member
    exact ⟨ends, noSpace, noTab, noNewline⟩
  have fits := image.meminfoFits
  have visible := rowsText_visible image.meminfoPlain
  have part : cString (image.meminfoTail.take (2048 - 1 - (rowsText image.meminfo).length)) <:+:
      image.meminfoTail :=
    (List.takeWhile_prefix _).isInfix.trans (List.take_prefix _ _).isInfix
  rw [List.take_append, List.take_of_length_le (by omega), cString_append visible]
  exact scanMemoryKey_rows (isKey key listed) image.meminfoPlain image.meminfoRange
    (strstr_none_noOccurrence part (image.meminfoKeys key listed))

theorem zfsArcSize_nothing {arcstats : Option Bytes} (gives : streamGives arcstats none) :
    zfsArcSize arcstats = 0 := by
  cases arcstats with
  | none => rfl
  | some text =>
      have empty : text = [] := gives
      subst text
      rfl

theorem memoryInUse_image {total unused swapTotal swapFree : Nat}
    (memory : image.Memory total unused swapTotal swapFree) {arcstats : Option Bytes}
    (noZfs : image.counter "MemAvailable:" = none → zfsArcSize arcstats = 0) :
    memoryInUse (cString ((rowsText image.meminfo ++ image.meminfoTail).take (2048 - 1))) arcstats
        (total * 1024) = some ((total - unused) * 1024) := by
  have within := memory.within
  have fits := memory.fits
  have difference : wrap64 (((total * 1024 : Nat) : Int) - unused * 1024) = (total - unused) * 1024 := by
    unfold wrap64
    omega
  have read := memory.unusedRead
  rw [unusedKib] at read
  rw [memoryInUse]
  simp only [image.scanMemoryKey_image (show "MemAvailable:" ∈ memoryKeys by decide),
    image.scanMemoryKey_image (show "MemFree:" ∈ memoryKeys by decide),
    image.scanMemoryKey_image (show "Buffers:" ∈ memoryKeys by decide),
    image.scanMemoryKey_image (show "Cached:" ∈ memoryKeys by decide),
    image.scanMemoryKey_image (show "SReclaimable:" ∈ memoryKeys by decide)]
  cases available : image.counter "MemAvailable:" with
  | some value =>
      rw [available] at read
      rw [Option.some.inj read]
      exact congrArg some difference
  | none =>
      rw [available] at read
      obtain ⟨free, freeRead, sum⟩ := Option.map_eq_some_iff.mp read
      subst unused
      have zfs := noZfs available
      rw [zfsArcSize] at zfs
      simp only [freeRead, zfs]
      rw [← difference]
      simp only [Nat.cast_zero, sub_zero, Nat.cast_add]

theorem usedSystemMemorySysdep_image {total unused swapTotal swapFree : Nat}
    (memory : image.Memory total unused swapTotal swapFree) {arcstats : Option Bytes}
    (noZfs : image.counter "MemAvailable:" = none → zfsArcSize arcstats = 0) (state : SystemState) :
    usedSystemMemorySysdep (.content (rowsText image.meminfo ++ image.meminfoTail)) arcstats state =
      (true, { state with
        globals.memorySize := total * 1024
        si.memory.bytes := (total - unused) * 1024
        si.swapSize := swapTotal * 1024
        si.swap.bytes := (swapTotal - swapFree) * 1024 }) := by
  have fits := memory.fits
  have swapWithin := memory.swapWithin
  have swapFits := memory.swapFits
  have read : fileReadProc 2048 (.content (rowsText image.meminfo ++ image.meminfoTail)) =
      some ((rowsText image.meminfo ++ image.meminfoTail).take (2048 - 1)) := rfl
  have size : total * 1024 % 2 ^ 64 = total * 1024 := Nat.mod_eq_of_lt fits
  have swapSize : swapTotal * 1024 % 2 ^ 64 = swapTotal * 1024 := Nat.mod_eq_of_lt swapFits
  have swapUsed : wrap64 (((swapTotal : Int) - swapFree) * 1024) = (swapTotal - swapFree) * 1024 := by
    unfold wrap64
    omega
  rw [usedSystemMemorySysdep, read]
  simp only [updateMemorySize, image.scanMemoryKey_image (show "MemTotal:" ∈ memoryKeys by decide),
    image.scanMemoryKey_image (show "SwapTotal:" ∈ memoryKeys by decide),
    image.scanMemoryKey_image (show "SwapFree:" ∈ memoryKeys by decide), memory.totalRead, size,
    memoryInUse_image memory noZfs, memory.swapTotalRead, memory.swapFreeRead, swapSize, swapUsed]

/-! The file descriptors. -/

theorem sscanf_fileNr (image : SystemImage) :
    sscanf fileNrFormat image.fileNr = [image.allocated, image.unused, image.maximum] := by
  have tab (value : Int) (rest : Bytes) :
      skipSpace (9 :: (signedDecimal value ++ rest)) = signedDecimal value ++ rest :=
    skipSpace_signedDecimal value rest
  have newline : NoDigit [10] := noDigit_cons rfl []
  have text : image.fileNr = signedDecimal image.allocated ++ 9 :: (signedDecimal image.unused ++
      9 :: (signedDecimal image.maximum ++ [10])) := by
    simp [fileNr, fileNrLine]
  rw [text, fileNrFormat, sscanf, scanInt_signedDecimal (noDigit_cons rfl _)]
  dsimp only
  rw [sscanf, tab, sscanf, scanInt_signedDecimal (noDigit_cons rfl _)]
  dsimp only
  rw [sscanf, tab, sscanf, scanInt_signedDecimal newline, convert_inRange image.allocatedRange,
    convert_inRange image.unusedRange, convert_inRange image.maximumRange]
  rfl

theorem mem_fileNrLine (image : SystemImage) {byte : UInt8} (member : byte ∈ image.fileNrLine) :
    byte = 9 ∨ byte = 45 ∨ isdigit byte = true := by
  simp only [fileNrLine, List.mem_append, List.mem_cons] at member
  rcases member with number | tab | number | tab | number
  · exact Or.inr (mem_signedDecimal number)
  · exact Or.inl tab
  · exact Or.inr (mem_signedDecimal number)
  · exact Or.inl tab
  · exact Or.inr (mem_signedDecimal number)

theorem fileNr_visible (image : SystemImage) : 0 ∉ image.fileNr := by
  intro member
  rcases List.mem_append.mp member with inLine | newline
  · rcases image.mem_fileNrLine inLine with tab | minus | digit
    · cases tab
    · cases minus
    · cases digit
  · cases List.mem_singleton.mp newline

theorem fileNrLine_length (image : SystemImage) : image.fileNrLine.length ≤ 62 := by
  have short {value : Int} (range : InRange .long value) : (signedDecimal value).length ≤ 20 := by
    obtain ⟨lower, upper⟩ := range
    exact signedDecimal_length_le (by decide) (by omega : value.natAbs < 10 ^ 19)
  have allocated := short image.allocatedRange
  have unused := short image.unusedRange
  have maximum := short image.maximumRange
  simp only [fileNrLine, List.length_append, List.length_cons]
  omega

theorem fileNr_line (image : SystemImage) : (fileLines image.fileNr).head? = some image.fileNr := by
  have short := image.fileNrLine_length
  have plain : ∀ line ∈ [image.fileNrLine], 10 ∉ line ∧ line.length + 1 < bufferStrlen := by
    refine List.forall_mem_singleton.mpr ⟨?_, by rw [bufferStrlen]; omega⟩
    intro newline
    rcases image.mem_fileNrLine newline with tab | minus | digit
    · cases tab
    · cases minus
    · cases digit
  have lines := fgetsLines_lines plain [] (show 1 ≤ image.fileNr.length by simp [fileNr])
  rw [fileLines]
  change fgetsLines bufferStrlen image.fileNr.length (image.fileNrLine ++ [10] ++ [] ++ []) = _ at lines
  rw [List.append_nil, List.append_nil] at lines
  rw [fileNr] at lines ⊢
  rw [lines]
  rfl

theorem usedSystemFiledescriptorsSysdep_image (image : SystemImage) (files : SystemFiledescriptors) :
    usedSystemFiledescriptorsSysdep (some image.fileNr) files =
      (true, ⟨image.allocated, image.unused, image.maximum⟩) := by
  rw [usedSystemFiledescriptorsSysdep]
  simp only [image.fileNr_line, cString_of_visible image.fileNr_visible, image.sscanf_fileNr]
  rfl

end SystemImage

theorem percent_kib {total unused : Nat} (within : unused ≤ total) :
    (if 0 < total * 1024 then
        100 * (((total - unused) * 1024 : Nat) : ℚ) / ((total * 1024 : Nat) : ℚ)
      else 0) = if 0 < total then 100 * ((total : ℚ) - unused) / total else 0 := by
  by_cases positive : 0 < total
  · have divisor : (total : ℚ) ≠ 0 := by exact_mod_cast positive.ne'
    rw [if_pos (by omega), if_pos positive, Nat.cast_mul, Nat.cast_mul, Nat.cast_sub within]
    field_simp
  · rw [if_neg (by omega), if_neg positive]

/-- An update on the kernel's files succeeds and publishes what they say, whatever the
structure held before. The CPU percentages are the shares of the ticks since the reading that
the structure holds. -/
theorem updateSystemInfo_presented (image : SystemImage) (visit : SystemVisit)
    (presented : image.Presented visit) (total unused swapTotal swapFree : Nat)
    (memory : image.Memory total unused swapTotal swapFree) (stack : CpuUsageTime)
    (state : SystemState) :
    ∃ cpu : SystemCpuUsage, updateSystemInfo state (visit.files stack) = (true, {
        globals := { state.globals with memorySize := total * 1024 }
        si := { state.si with
          loadavg := (image.first.value, image.second.value, image.third.value)
          memory := {
            percent := if 0 < total then 100 * (total - unused) / total else 0
            bytes := (total - unused) * 1024 }
          swapSize := swapTotal * 1024
          swap := {
            percent := if 0 < swapTotal then 100 * (swapTotal - swapFree) / swapTotal else 0
            bytes := (swapTotal - swapFree) * 1024 }
          cpu := cpu
          filedescriptors := ⟨image.allocated, image.unused, image.maximum⟩ } }) ∧
      cpu.old = image.reading ∧
      (state.si.cpu.old.total = 0 → AllUnknown cpu) ∧
      ∀ before : List Nat, state.si.cpu.old = usageOf before → state.si.cpu.old.total ≠ 0 →
        Advanced state.si.cpu.old image.reading →
        cpu.percentages = (shares state.si.cpu.old image.reading).map some := by
  have noZfs : image.counter "MemAvailable:" = none →
      zfsArcSize (visit.arcstats.stream (bytes "/proc/spl/kstat/zfs/arcstats")) = 0 := fun summed =>
    SystemImage.zfsArcSize_nothing (presented.arcstats summed)
  have files : visit.files stack = {
      loadavg := .content image.loadavg
      meminfo := .content (rowsText image.meminfo ++ image.meminfoTail)
      arcstats := visit.arcstats.stream (bytes "/proc/spl/kstat/zfs/arcstats")
      stat := .content (cpuLine image.cpus ++ image.following)
      stack := stack
      fileNr := some image.fileNr } := by
    have loadavg : procFilename (bytes "loadavg") (-1) (-1) = bytes "/proc/loadavg" := by decide
    have meminfo : procFilename (bytes "meminfo") (-1) (-1) = bytes "/proc/meminfo" := by decide
    have stat : procFilename (bytes "stat") (-1) (-1) = bytes "/proc/stat" := by decide
    have fileNr : visit.fileNr.stream (bytes "/proc/sys/fs/file-nr") = some image.fileNr := by
      rw [Procfs.stream, presented.fileNr]
    rw [SystemVisit.files, loadavg, meminfo, stat, presented.loadavg, presented.meminfo, presented.stat,
      fileNr]
  have line := getCpuUsateTime_line image.cpus image.cpusFit image.stop image.absent stack
  rw [if_pos image.accepted] at line
  have stage := usedSystemCpuSysdep_success line state.si.cpu
  refine ⟨_, ?_, usedSystemCpuSysdep_old line state.si.cpu, ?_, ?_⟩
  · rw [files, updateSystemInfo]
    simp only [image.getloadavgSysdep_image,
      SystemImage.usedSystemMemorySysdep_image memory noZfs, memoryPercentages, stage,
      image.usedSystemFiledescriptorsSysdep_image]
    rw [percent_kib memory.within, percent_kib memory.swapWithin]
  · intro first
    rw [stage, if_pos first]
    exact unknownPercentages_unknown _
  · intro before read nonzero advanced
    have readTotal : state.si.cpu.old.total = state.si.cpu.old.ticks % 2 ^ 64 := by
      rw [read]
      rfl
    rw [stage, if_neg nonzero]
    exact cpuPercentages_shares advanced readTotal rfl

def kibRow (label : String) (value : Nat) : Row :=
  ⟨bytes label, [32, 32], value, bytes " kB"⟩

def sampleRows : List Row := [
  kibRow "MemTotal:" 900, kibRow "MemFree:" 100, kibRow "Buffers:" 20, kibRow "Cached:" 30,
  kibRow "SwapCached:" 7, kibRow "SwapTotal:" 40, kibRow "SwapFree:" 10]

theorem sampleRows_row {row : Row} (member : row ∈ sampleRows) :
    ∃ label value, row = kibRow label value ∧ value < 1000 ∧ (bytes label).getLast? = some 58 ∧
      58 ∉ (bytes label).dropLast ∧ 0 ∉ bytes label := by
  simp only [sampleRows, List.mem_cons, List.not_mem_nil, or_false] at member
  rcases member with rfl | rfl | rfl | rfl | rfl | rfl | rfl <;>
    exact ⟨_, _, rfl, by decide, by decide, by decide, by decide⟩

theorem sampleRows_plain : ∀ row ∈ sampleRows, row.Plain := by
  intro row member
  obtain ⟨label, value, rfl, -, ends, once, visible⟩ := sampleRows_row member
  have unit : (bytes " kB").all (fun byte => byte != 0 && byte != 10 && byte != 58) := by decide
  exact {
    gapped := List.cons_ne_nil 32 [32]
    blank := by simp [kibRow]
    unitPlain := fun byte inUnit => by simpa [and_assoc] using List.all_eq_true.mp unit byte inUnit
    unitStops := noDigit_cons rfl _
    labelEnds := ends
    labelOnce := once
    labelVisible := visible }

def sampleSystem : SystemImage where
  first := ⟨0, 25, by decide⟩
  second := ⟨1, 50, by decide⟩
  third := ⟨12, 3, by decide⟩
  tasks := bytes "1/99 7\n"
  meminfo := sampleRows
  meminfoTail := bytes "HugePages_Total:   0\n"
  cpus := fourCounters
  following := [10]
  allocated := 5
  unused := 0
  maximum := 9223372036854775807
  loadavgFits := by decide +kernel
  tasksVisible := by decide
  meminfoPlain := sampleRows_plain
  meminfoRange := by
    intro row member
    obtain ⟨label, value, rfl, small, -⟩ := sampleRows_row member
    change 0 ≤ (value : Int) ∧ (value : Int) < 2 ^ 64
    omega
  meminfoFits := by decide +kernel
  meminfoKeys := by decide
  accepted := by decide
  cpusFit := by decide
  stop := noDigit_cons rfl []
  absent _ := rfl
  allocatedRange := by simp [InRange]
  unusedRange := by simp [InRange]
  maximumRange := by simp [InRange]

/-- An old kernel: the unused memory is the sum of what is free, buffered and cached. -/
theorem sampleSystem_memory : sampleSystem.Memory 900 150 40 10 := by
  constructor <;> decide +kernel

def sampleSystemVisit : SystemVisit where
  loadavg := ⟨fileAt (bytes "/proc/loadavg") (.content sampleSystem.loadavg), fun _ => none⟩
  meminfo := ⟨fileAt (bytes "/proc/meminfo")
    (.content (rowsText sampleSystem.meminfo ++ sampleSystem.meminfoTail)), fun _ => none⟩
  arcstats := ⟨fun _ => .openFailed, fun _ => none⟩
  stat := ⟨fileAt (bytes "/proc/stat")
    (.content (cpuLine sampleSystem.cpus ++ sampleSystem.following)), fun _ => none⟩
  fileNr := ⟨fileAt (bytes "/proc/sys/fs/file-nr") (.content sampleSystem.fileNr), fun _ => none⟩

theorem sampleSystem_presented : sampleSystem.Presented sampleSystemVisit where
  loadavg := fileAt_same (bytes "/proc/loadavg") (.content sampleSystem.loadavg)
  meminfo := fileAt_same (bytes "/proc/meminfo")
    (.content (rowsText sampleSystem.meminfo ++ sampleSystem.meminfoTail))
  arcstats _ := rfl
  stat := fileAt_same (bytes "/proc/stat")
    (.content (cpuLine sampleSystem.cpus ++ sampleSystem.following))
  fileNr := fileAt_same (bytes "/proc/sys/fs/file-nr") (.content sampleSystem.fileNr)

/-- The reading of an earlier update. -/
def sampleState : SystemState where
  globals := zeroGlobals
  si := { cpu.old := usageOf [1, 1, 1, 1] }

theorem updateSystemInfo_presented_sample :
    (updateSystemInfo sampleState (sampleSystemVisit.files {})).1 = true ∧
      (updateSystemInfo sampleState (sampleSystemVisit.files {})).2.si.memory.bytes = 768000 ∧
      (updateSystemInfo sampleState (sampleSystemVisit.files {})).2.si.cpu.percentages =
        (shares (usageOf [1, 1, 1, 1]) (usageOf [1, 2, 3, 4])).map some := by
  obtain ⟨cpu, updated, -, -, published⟩ := updateSystemInfo_presented sampleSystem sampleSystemVisit
    sampleSystem_presented 900 150 40 10 sampleSystem_memory {} sampleState
  rw [updated]
  exact ⟨rfl, rfl, published [1, 1, 1, 1] rfl (by decide) (by constructor <;> decide)⟩

end SimpleProcessMonitor
