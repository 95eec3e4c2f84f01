import SimpleProcessMonitor.Library.Decimal
import SimpleProcessMonitor.TickChecks

/-!
The thread ids that the scan of one process reads from the paths below `/proc/<pid>/task`.
-/

namespace SimpleProcessMonitor

open CString Decimal

structure PositiveInt where
  value : Int
  positive : 1 ≤ value
  bounded : value ≤ 2 ^ 31 - 1

def taskPath (pid tid : Int) : Bytes :=
  bytes "/proc/" ++ (signedDecimal pid ++ (bytes "/task/" ++ signedDecimal tid))

/-- The variables of one iteration; `pid` is the parameter of the function. -/
structure TaskVars where
  pid : Int
  pidCopy : Int
  digits : Nat

def countLoop (vars : TaskVars) : TaskVars :=
  if 0 < vars.pidCopy then
    countLoop { vars with
      pidCopy := vars.pidCopy.tdiv 10
      digits := vars.digits + 1 }
  else vars
termination_by vars.pidCopy.toNat
decreasing_by
  rename_i positive
  rw [Int.tdiv_eq_ediv_of_nonneg positive.le]
  omega

/-- The ids that an iteration sets, and `pid` behind it. -/
def taskRound (pid : Int) (path : Bytes) (data : ProcData) : Int × ProcData :=
  let vars := countLoop { pid := pid, pidCopy := pid, digits := 0 }
  (vars.pid, { data with
    pid := vars.pid
    tid := atoi (path.drop (6 + vars.digits + 6)) })

/-- The iterations over the globbed paths, each with what its parsers make of the data. -/
def taskRounds : Int → ProcData → List (Bytes × (ProcData → ProcData)) → Int × List ProcData
  | pid, _, [] => (pid, [])
  | pid, data, (path, parse) :: rest =>
      let round := taskRound pid path data
      let later := taskRounds round.1 (parse round.2) rest
      (later.1, round.2 :: later.2)

/-! The digits of the process id. -/

theorem countDigits_length {fuel value : Nat} (enough : value ≤ fuel) (positive : 0 < value) :
    countDigits fuel value = (decimal value).length := by
  induction fuel generalizing value with
  | zero => omega
  | succ fuel ih =>
      rw [countDigits, if_pos positive, decimal_length]
      by_cases small : value < 10
      · have zero : value / 10 = 0 := by omega
        rw [if_pos small, zero]
        cases fuel <;> rfl
      · rw [if_neg small, ih (by omega) (by omega)]

theorem countLoop_eq (pid copy : Int) (digits : Nat) {fuel : Nat} (enough : copy.toNat ≤ fuel) :
    countLoop { pid := pid, pidCopy := copy, digits := digits } =
      { pid := pid, pidCopy := min copy 0, digits := digits + countDigits fuel copy.toNat } := by
  induction fuel generalizing copy digits with
  | zero =>
      rw [countLoop, if_neg (by dsimp only; omega), min_eq_left (by omega)]
      rfl
  | succ fuel ih =>
      rw [countLoop]
      by_cases positive : 0 < copy
      · have quotient : copy.tdiv 10 = copy / 10 := Int.tdiv_eq_ediv_of_nonneg positive.le
        have magnitude : (copy / 10).toNat = copy.toNat / 10 := by omega
        have counted : countDigits (fuel + 1) copy.toNat = countDigits fuel (copy.toNat / 10) + 1 := by
          rw [countDigits, if_pos (by omega)]
        rw [if_pos positive, quotient, ih (copy / 10) (digits + 1) (by omega), magnitude, counted,
          min_eq_right positive.le, min_eq_right (by omega), Nat.add_right_comm, Nat.add_assoc]
      · have none : copy.toNat = 0 := by omega
        rw [if_neg positive, min_eq_left (by omega), none]
        rfl

theorem taskRound_eq {pid : Int} (single : pid ≠ allProcesses) (path : Bytes) (data : ProcData) :
    taskRound pid path data = (pid, setIds pid path data) := by
  rw [taskRound, countLoop_eq pid pid 0 (Nat.le_refl _), setIds, if_neg single, Nat.zero_add]

namespace PositiveInt

variable (pid tid : PositiveInt)

theorem signedDecimal_eq : signedDecimal pid.value = decimal pid.value.toNat := by
  have positive := pid.positive
  have magnitude : pid.value.natAbs = pid.value.toNat := by omega
  rw [signedDecimal, if_neg (by omega), magnitude]

theorem single : pid.value ≠ allProcesses := by
  have positive := pid.positive
  unfold allProcesses
  omega

theorem countLoop_length :
    countLoop { pid := pid.value, pidCopy := pid.value, digits := 0 } =
      { pid := pid.value, pidCopy := 0, digits := (signedDecimal pid.value).length } := by
  have positive := pid.positive
  rw [countLoop_eq pid.value pid.value 0 (Nat.le_refl _), min_eq_right (by omega),
    countDigits_length (Nat.le_refl _) (by omega), signedDecimal_eq, Nat.zero_add]

theorem drop_taskPath :
    (taskPath pid.value tid.value).drop (6 + (signedDecimal pid.value).length + 6) =
      signedDecimal tid.value := by
  have proc : (bytes "/proc/").length = 6 := by decide
  have task : (bytes "/task/").length = 6 := by decide
  have offset : 6 + (signedDecimal pid.value).length + 6 =
      (bytes "/proc/" ++ signedDecimal pid.value ++ bytes "/task/").length := by
    rw [List.length_append, List.length_append, proc, task]
  have path : taskPath pid.value tid.value =
      bytes "/proc/" ++ signedDecimal pid.value ++ bytes "/task/" ++ signedDecimal tid.value := by
    simp only [taskPath, List.append_assoc]
  rw [offset, path, List.drop_left]

theorem atoi_eq : atoi (signedDecimal tid.value) = tid.value := by
  have positive := tid.positive
  have bounded := tid.bounded
  refine atoi_signedDecimal ?_
  unfold InRange
  dsimp only
  omega

theorem taskRound_path (data : ProcData) :
    taskRound pid.value (taskPath pid.value tid.value) data =
      (pid.value, { data with pid := pid.value, tid := tid.value }) := by
  rw [taskRound, countLoop_length]
  dsimp only
  rw [drop_taskPath, atoi_eq]

end PositiveInt

theorem taskRounds_ids (pid : PositiveInt) (data : ProcData)
    (iterations : List (PositiveInt × (ProcData → ProcData))) :
    (taskRounds pid.value data
        (iterations.map fun iteration =>
          (taskPath pid.value iteration.1.value, iteration.2))).1 = pid.value ∧
      (taskRounds pid.value data
        (iterations.map fun iteration =>
          (taskPath pid.value iteration.1.value, iteration.2))).2.map (fun data => (data.pid, data.tid)) =
        iterations.map fun iteration => (pid.value, iteration.1.value) := by
  induction iterations generalizing data with
  | nil => exact ⟨rfl, rfl⟩
  | cons iteration iterations ih =>
      obtain ⟨tid, parse⟩ := iteration
      obtain ⟨same, ids⟩ := ih (parse { data with pid := pid.value, tid := tid.value })
      rw [List.map_cons, taskRounds, pid.taskRound_path tid data]
      refine ⟨same, ?_⟩
      rw [List.map_cons, ids]
      rfl

/-- The offset is where the thread id starts, and every iteration finds `pid` as it was. -/
theorem task_ids (pid : PositiveInt) :
    (∀ tid : PositiveInt, ∃ digits,
      countLoop { pid := pid.value, pidCopy := pid.value, digits := 0 } =
        { pid := pid.value, pidCopy := 0, digits := digits } ∧
      (taskPath pid.value tid.value).drop (6 + digits + 6) = signedDecimal tid.value ∧
      atoi ((taskPath pid.value tid.value).drop (6 + digits + 6)) = tid.value) ∧
    ∀ (data : ProcData) (iterations : List (PositiveInt × (ProcData → ProcData))),
      let rounds := taskRounds pid.value data (iterations.map fun iteration =>
        (taskPath pid.value iteration.1.value, iteration.2))
      rounds.1 = pid.value ∧ rounds.2.map (fun data => (data.pid, data.tid)) =
        iterations.map fun iteration => (pid.value, iteration.1.value) := by
  refine ⟨fun tid => ⟨_, pid.countLoop_length, pid.drop_taskPath tid, ?_⟩, taskRounds_ids pid⟩
  rw [pid.drop_taskPath tid]
  exact tid.atoi_eq

/-! The ids of the scan. -/

theorem parseMandatory_data (sys : Sys) (files : ProcFiles) (proc : ProcT) :
    (parseMandatory sys files proc).2.data = (mandatoryData sys files proc.data).2 := by
  cases matched : (mandatoryData sys files proc.data).1 with
  | false => rw [parseMandatory_stops matched]
  | true =>
      rw [parseMandatory_goesOn matched, parseProcPidCmdline_data files proc.name rfl]

theorem parseMandatory_ids (sys : Sys) (files : ProcFiles) (proc : ProcT) :
    (parseMandatory sys files proc).2.data.pid = proc.data.pid ∧
      (parseMandatory sys files proc).2.data.tid = proc.data.tid := by
  have kept := mandatoryData_kept sys files proc.data
  rw [parseMandatory_data]
  exact ⟨congrArg (·.pid) kept, congrArg (·.tid) kept⟩

theorem parseProcFdCount_ids (files : ProcFiles) (data : ProcData) :
    (parseProcFdCount files data).2.pid = data.pid ∧
      (parseProcFdCount files data).2.tid = data.tid := by
  unfold parseProcFdCount
  cases files.fd with
  | none => exact ⟨rfl, rfl⟩
  | some dir =>
      dsimp only
      split
      · exact ⟨rfl, rfl⟩
      · split
        · exact ⟨rfl, rfl⟩
        · cases files.limits with
          | none => exact ⟨rfl, rfl⟩
          | some text =>
              dsimp only
              split <;> exact ⟨rfl, rfl⟩

theorem parseOptional_ids (files : ProcFiles) (proc : ProcT) :
    (parseOptional files proc).data.pid = proc.data.pid ∧
      (parseOptional files proc).data.tid = proc.data.tid := by
  have opened := parseProcFdCount_ids files proc.data
  unfold parseOptional parseProcPidAttrCurrent
  cases files.attrCurrent <;> exact opened

theorem setIds_ids (pid : Int) (path : Bytes) (data : ProcData) :
    (setIds pid path data).pid = (setIds pid path {}).pid ∧
      (setIds pid path data).tid = (setIds pid path {}).tid := by
  unfold setIds
  split <;> exact ⟨rfl, rfl⟩

/-- The ids of an accepted process come from its own path, whatever an earlier one left. -/
theorem acceptedProcesses_ids {sys : Sys} {pid : Int} {entries : List GlobEntry} {proc : ProcT}
    {accepted : GlobEntry × ProcT} (member : accepted ∈ acceptedProcesses sys pid entries proc) :
    accepted.1 ∈ entries ∧ accepted.2.data.pid = (setIds pid accepted.1.path {}).pid ∧
      accepted.2.data.tid = (setIds pid accepted.1.path {}).tid := by
  induction entries generalizing proc with
  | nil => cases member
  | cons entry entries ih =>
      have mandatory := parseMandatory_ids sys entry.files
        { proc with data := setIds pid entry.path proc.data }
      have started := setIds_ids pid entry.path proc.data
      rw [acceptedProcesses] at member
      generalize parseMandatory sys entry.files
        { proc with data := setIds pid entry.path proc.data } = result at member mandatory
      obtain ⟨_ | _, parsed⟩ := result
      · obtain ⟨listed, ids⟩ := ih member
        exact ⟨List.mem_cons_of_mem entry listed, ids⟩
      · rcases List.mem_cons.mp member with rfl | later
        · have optional := parseOptional_ids entry.files parsed
          exact ⟨List.mem_cons_self, optional.1.trans (mandatory.1.trans started.1),
            optional.2.trans (mandatory.2.trans started.2)⟩
        · obtain ⟨listed, ids⟩ := ih later
          exact ⟨List.mem_cons_of_mem entry listed, ids⟩

theorem scanEntries_taskPath (sys : Sys) (starttime : Int) (pid : PositiveInt)
    {entries : List GlobEntry}
    (paths : ∀ entry ∈ entries, ∃ tid : PositiveInt, entry.path = taskPath pid.value tid.value)
    {proc : ProcT} {record : ProcessRecord}
    (member : record ∈ scanEntries sys starttime pid.value entries proc) :
    ∃ entry ∈ entries, entry.path = taskPath pid.value record.pid := by
  rw [scanEntries_accepted] at member
  obtain ⟨accepted, found, rfl⟩ := List.mem_map.mp member
  obtain ⟨listed, -, own⟩ := acceptedProcesses_ids found
  obtain ⟨tid, path⟩ := paths accepted.1 listed
  have round := pid.taskRound_path tid {}
  rw [taskRound_eq pid.single] at round
  have read : accepted.2.data.tid = tid.value := by
    rw [own, path, (Prod.mk.inj round).2]
  refine ⟨accepted.1, listed, ?_⟩
  have stored : (storeRecord sys starttime pid.value accepted.1.files accepted.2).pid =
      accepted.2.data.tid := if_neg pid.single
  rw [stored, read, path]

end SimpleProcessMonitor
