import SimpleProcessMonitor.SystemUsageChecks

/-! What program code finds in `g_fixed_system_info` after the library constructor. -/

namespace SimpleProcessMonitor

open CString

structure Initialised (info : FixedSystemInfo) : Prop where
  cpuCount : 1 ≤ info.cpuCount
  hz : 0 < info.hz
  pageSize : 0 < info.pageSize

/-- The divisors of `getNowSingleCoreCpuTime`, where `cpu_count` is converted to
`unsigned long long`, and of `_initprocesstree_sysdep`. -/
def DivisorsNonzero (info : FixedSystemInfo) : Prop :=
  (info.cpuCount % 2 ^ 64).toNat ≠ 0 ∧ info.hz ≠ 0

theorem wrapSigned_bounded (value : Int) :
    -2 ^ 31 ≤ wrapSigned 32 value ∧ wrapSigned 32 value < 2 ^ 31 := by
  have positive : (0 : Int) < 2 ^ 32 := by decide
  have lower := Int.emod_nonneg (value + 2 ^ (32 - 1)) positive.ne'
  have upper := Int.emod_lt_of_pos (value + 2 ^ (32 - 1)) positive
  unfold wrapSigned
  norm_num at lower upper ⊢
  omega

theorem divisors_nonzero {info : FixedSystemInfo} (initialised : Initialised info)
    (fits : info.cpuCount < 2 ^ 31) : DivisorsNonzero info := by
  have cores := initialised.cpuCount
  refine ⟨?_, initialised.hz.ne'⟩
  norm_num at fits ⊢
  omega

theorem initFixedSystemInfo_success {sysconf : Sysconf} {meminfo : Option Bytes}
    {before globals : Globals}
    (succeeded : initFixedSystemInfo sysconf meminfo before = (true, globals)) :
    Initialised globals.fixed ∧ globals.fixed.cpuCount < 2 ^ 31 := by
  have bounded := (wrapSigned_bounded sysconf.nprocessorsConf).2
  unfold initFixedSystemInfo at succeeded
  dsimp only at succeeded
  split at succeeded
  · cases succeeded
  rename_i hz
  split at succeeded
  · cases succeeded
  rename_i pageSize
  split at succeeded
  · cases succeeded
  rename_i cpuCount
  have cores : 0 ≤ wrapSigned 32 sysconf.nprocessorsConf := not_lt.mp cpuCount
  have kept : globals.fixed = if wrapSigned 32 sysconf.nprocessorsConf = 0
      then ⟨sysconf.pageSize, sysconf.clkTck, 1⟩
      else ⟨sysconf.pageSize, sysconf.clkTck, wrapSigned 32 sysconf.nprocessorsConf⟩ := by
    split at succeeded
    · cases succeeded
      split <;> rfl
    · split at succeeded
      · cases succeeded
        split <;> rfl
      · cases succeeded
        split <;> rfl
  rw [kept]
  split
  · exact ⟨⟨le_refl _, not_le.mp hz, not_le.mp pageSize⟩, by norm_num⟩
  · rename_i nonzero
    have atLeastOne : 1 ≤ wrapSigned 32 sysconf.nprocessorsConf := by omega
    exact ⟨⟨atLeastOne, not_le.mp hz, not_le.mp pageSize⟩, bounded⟩

theorem libraryConstructor_initialises_iff (ndebug : Bool) (sysconf : Sysconf)
    (meminfo : Option Bytes) :
    (∀ globals, libraryConstructor ndebug sysconf meminfo = some globals →
      ∀ (unameSucceeds : Bool) (calls : List SystemFiles),
        Initialised (afterUpdates globals unameSucceeds calls).globals.fixed ∧
          DivisorsNonzero (afterUpdates globals unameSucceeds calls).globals.fixed) ↔
      ndebug = false := by
  simp only [afterUpdates_fixed]
  cases ndebug with
  | true =>
      refine ⟨fun initialises => ?_, fun impossible => by cases impossible⟩
      have zero := (initialises zeroGlobals rfl true []).1.cpuCount
      cases zero
  | false =>
      refine ⟨fun _ => rfl, fun _ => ?_⟩
      intro globals running _ _
      cases outcome : initFixedSystemInfo sysconf meminfo zeroGlobals with
      | mk succeeded after =>
          cases succeeded with
          | false => simp [libraryConstructor, outcome] at running
          | true =>
              have same : after = globals := by simpa [libraryConstructor, outcome] using running
              subst same
              obtain ⟨initialised, fits⟩ := initFixedSystemInfo_success outcome
              exact ⟨initialised, divisors_nonzero initialised fits⟩

theorem release_build_uninitialised :
    ¬∀ (ndebug : Bool) (sysconf : Sysconf) (meminfo : Option Bytes) (globals : Globals),
      libraryConstructor ndebug sysconf meminfo = some globals →
      ∀ (unameSucceeds : Bool) (calls : List SystemFiles),
        Initialised (afterUpdates globals unameSucceeds calls).globals.fixed ∧
          DivisorsNonzero (afterUpdates globals unameSucceeds calls).globals.fixed := by
  intro claim
  have cores := (claim true ⟨100, 4096, 2⟩ none zeroGlobals rfl true []).1.cpuCount
  revert cores
  decide

end SimpleProcessMonitor
