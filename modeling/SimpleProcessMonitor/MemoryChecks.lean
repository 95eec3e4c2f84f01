import SimpleProcessMonitor.SystemUsageChecks

/-!
The subtractions behind the memory and swap usage: their operands are counters that the
kernel prints independently, and none of them is compared before it is subtracted.
-/

namespace SimpleProcessMonitor

open CString

def meminfoText (meminfo : FileRead) : Bytes :=
  match fileReadProc 2048 meminfo with
  | none => []
  | some buf => cString buf

def counter (key : String) (text : Bytes) : Nat := (scanMemoryKey key text).getD 0

def zfsArcSize (arcstats : Option Bytes) : Nat :=
  (arcstats.bind fun lines => findLine arcSizeFormat (fileLines lines)).getD 0

def reclaimable (text : Bytes) : Nat :=
  (counter "MemFree:" text + counter "Buffers:" text + counter "Cached:" text +
    counter "SReclaimable:" text) * 1024 % 2 ^ 64

def memorySubtractions (text : Bytes) (arcstats : Option Bytes) (memorySize : Nat) :
    List (Nat × Nat) :=
  match scanMemoryKey "MemAvailable:" text with
  | some memAvailable => [(memorySize, memAvailable * 1024 % 2 ^ 64)]
  | none =>
      [(memorySize, zfsArcSize arcstats), (wrap64 (memorySize - zfsArcSize arcstats), reclaimable text)]

def unusedMemory (text : Bytes) (arcstats : Option Bytes) : Nat :=
  match scanMemoryKey "MemAvailable:" text with
  | some memAvailable => memAvailable * 1024 % 2 ^ 64
  | none => zfsArcSize arcstats + reclaimable text

/-- The counters agree with each other, also where a product with 1024 overflows. -/
structure Consistent (text : Bytes) (arcstats : Option Bytes) (memorySize : Nat) : Prop where
  memory : unusedMemory text arcstats ≤ memorySize
  swap : counter "SwapFree:" text ≤ counter "SwapTotal:" text
  swapBytes : counter "SwapFree:" text * 1024 % 2 ^ 64 ≤ counter "SwapTotal:" text * 1024 % 2 ^ 64

def InPercent (percent : ℚ) : Prop := 0 ≤ percent ∧ percent ≤ 100

/-- No subtraction wraps, and every usage is at most what it is the usage of. -/
structure Bounded (text : Bytes) (arcstats : Option Bytes) (after : SystemState) : Prop where
  memorySubtractions : ∀ pair ∈ memorySubtractions text arcstats after.globals.memorySize,
    pair.2 ≤ pair.1
  swapSubtraction : counter "SwapFree:" text ≤ counter "SwapTotal:" text
  memoryBytes : after.si.memory.bytes ≤ after.globals.memorySize
  swapBytes : after.si.swap.bytes ≤ after.si.swapSize
  memoryPercent : InPercent (memoryPercentages after).si.memory.percent
  swapPercent : InPercent (memoryPercentages after).si.swap.percent

theorem ratio_inPercent {used size : Nat} (within : used ≤ size) :
    InPercent (if 0 < size then 100 * (used : ℚ) / size else 0) := by
  split
  · rename_i positive
    have divisor : (0 : ℚ) < size := by exact_mod_cast positive
    have ordered : (used : ℚ) ≤ size := by exact_mod_cast within
    refine ⟨by positivity, ?_⟩
    rw [div_le_iff₀ divisor]
    linarith
  · exact ⟨le_refl _, by norm_num⟩

theorem wrap64_sub_le {size taken : Nat} (within : taken % 2 ^ 64 ≤ size) :
    wrap64 ((size : Int) - taken) ≤ size := by
  unfold wrap64
  omega

theorem swap_bytes_le_iff (total free : Nat) :
    wrap64 (((total : Int) - free) * 1024) ≤ total * 1024 % 2 ^ 64 ↔
      free * 1024 % 2 ^ 64 ≤ total * 1024 % 2 ^ 64 := by
  unfold wrap64
  omega

theorem usedSystemMemorySysdep_values {meminfo : FileRead} {arcstats : Option Bytes}
    {state after : SystemState}
    (succeeded : usedSystemMemorySysdep meminfo arcstats state = (true, after)) :
    memoryInUse (meminfoText meminfo) arcstats after.globals.memorySize = some after.si.memory.bytes ∧
      after.globals.memorySize = (updateMemorySize (meminfoText meminfo) state.globals).memorySize ∧
      after.si.swapSize = counter "SwapTotal:" (meminfoText meminfo) * 1024 % 2 ^ 64 ∧
      after.si.swap.bytes = wrap64 (((counter "SwapTotal:" (meminfoText meminfo) : Int) -
        counter "SwapFree:" (meminfoText meminfo)) * 1024) := by
  cases read : fileReadProc 2048 meminfo with
  | none =>
      simp only [usedSystemMemorySysdep, read] at succeeded
      cases succeeded
  | some buf =>
      simp only [usedSystemMemorySysdep, read] at succeeded
      simp only [meminfoText, read]
      split at succeeded
      · cases succeeded
      · rename_i used inUse
        split at succeeded
        · cases succeeded
        · rename_i swapTotal total
          split at succeeded
          · cases succeeded
          · rename_i swapFree free
            cases succeeded
            refine ⟨inUse, rfl, ?_, ?_⟩
            · simp only [counter, total, Option.getD_some]
            · simp only [counter, total, free, Option.getD_some]

theorem memoryInUse_le {text : Bytes} {arcstats : Option Bytes} {memorySize used : Nat}
    (inUse : memoryInUse text arcstats memorySize = some used)
    (within : unusedMemory text arcstats ≤ memorySize) : used ≤ memorySize := by
  unfold memoryInUse at inUse
  unfold unusedMemory at within
  split at inUse
  · rename_i memAvailable available
    rw [available] at within
    rw [← Option.some.inj inUse]
    exact_mod_cast wrap64_sub_le within
  · rename_i available
    rw [available] at within
    split at inUse
    · cases inUse
    · rename_i memFree free
      rw [← Option.some.inj inUse]
      simp only [reclaimable, counter, free, Option.getD_some, zfsArcSize] at within
      unfold wrap64
      omega

theorem memorySubtractions_iff (text : Bytes) (arcstats : Option Bytes) {memorySize : Nat}
    (fits : memorySize < 2 ^ 64) :
    (∀ pair ∈ memorySubtractions text arcstats memorySize, pair.2 ≤ pair.1) ↔
      unusedMemory text arcstats ≤ memorySize := by
  unfold memorySubtractions unusedMemory
  cases scanMemoryKey "MemAvailable:" text with
  | some memAvailable => simp
  | none =>
      simp only [List.forall_mem_cons, List.not_mem_nil, false_imp_iff, implies_true, and_true]
      unfold wrap64
      omega

theorem updateMemorySize_fits (text : Bytes) {globals : Globals} (fits : globals.memorySize < 2 ^ 64) :
    (updateMemorySize text globals).memorySize < 2 ^ 64 := by
  unfold updateMemorySize
  split
  · exact fits
  · exact Nat.mod_lt _ (by decide)

theorem usedSystemMemorySysdep_bounded_iff (meminfo : FileRead) (arcstats : Option Bytes)
    (state after : SystemState) (fits : state.globals.memorySize < 2 ^ 64)
    (succeeded : usedSystemMemorySysdep meminfo arcstats state = (true, after)) :
    Bounded (meminfoText meminfo) arcstats after ↔ Consistent (meminfoText meminfo) arcstats
      (updateMemorySize (meminfoText meminfo) state.globals).memorySize := by
  obtain ⟨inUse, size, swapSize, swapBytes⟩ := usedSystemMemorySysdep_values succeeded
  have sizeFits := updateMemorySize_fits (meminfoText meminfo) fits
  rw [← size] at sizeFits ⊢
  have subtractions := memorySubtractions_iff (meminfoText meminfo) arcstats sizeFits
  have swapIff := swap_bytes_le_iff (counter "SwapTotal:" (meminfoText meminfo))
    (counter "SwapFree:" (meminfoText meminfo))
  rw [← swapSize, ← swapBytes] at swapIff
  constructor
  · intro bounded
    exact ⟨subtractions.mp bounded.memorySubtractions, bounded.swapSubtraction,
      (swapIff.mp bounded.swapBytes).trans_eq swapSize⟩
  · intro consistent
    have memoryBytes := memoryInUse_le inUse consistent.memory
    have swapWithin := swapIff.mpr (consistent.swapBytes.trans_eq swapSize.symm)
    exact ⟨subtractions.mpr consistent.memory, consistent.swap, memoryBytes, swapWithin,
      ratio_inPercent memoryBytes, ratio_inPercent swapWithin⟩

def sampleMeminfo (memAvailable : String) : FileRead :=
  .content (bytes s!"MemTotal: 8 kB\nMemAvailable: {memAvailable} kB\nSwapTotal: 4 kB\nSwapFree: 4 kB\n")

theorem usedSystemMemorySysdep_bounded_iff_sample :
    Bounded (meminfoText (sampleMeminfo "5")) none
      (usedSystemMemorySysdep (sampleMeminfo "5") none ⟨zeroGlobals, {}⟩).2 :=
  (usedSystemMemorySysdep_bounded_iff (sampleMeminfo "5") none ⟨zeroGlobals, {}⟩ _ (by decide)
    (Prod.ext (by decide +kernel) rfl)).mpr
    ⟨by decide +kernel, by decide +kernel, by decide +kernel⟩

/-- More memory is available than there is, as in a container whose total is limited: the
usage is the difference modulo `2 ^ 64`. -/
theorem availableMemory_wraps :
    ¬∀ (meminfo : FileRead) (arcstats : Option Bytes) (state after : SystemState),
      state.globals.memorySize < 2 ^ 64 →
      usedSystemMemorySysdep meminfo arcstats state = (true, after) →
      Bounded (meminfoText meminfo) arcstats after := by
  intro claim
  have bounded := claim (sampleMeminfo "9") none ⟨zeroGlobals, {}⟩
    (usedSystemMemorySysdep (sampleMeminfo "9") none ⟨zeroGlobals, {}⟩).2 (by decide)
    (Prod.ext (by decide +kernel) rfl)
  have within := bounded.memoryBytes
  revert within
  decide +kernel

end SimpleProcessMonitor
