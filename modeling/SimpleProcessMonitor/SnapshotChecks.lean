import SimpleProcessMonitor.LinkChecks

/-!
One snapshot: the array that `ProcessTree_init` builds from the records of a scan.
-/

namespace SimpleProcessMonitor

def recordLink (record : ProcessRecord) : Int × Int :=
  (record.pid, record.ppid)

def virtualRecord (pid : Int) : ProcessRecord :=
  { pid := pid, ppid := pid }

/-- What an entry says of the process it stands for: the part that the scan fills in. -/
def measured (entry : ProcessTreeT) : ProcessRecord where
  pid := entry.pid
  ppid := entry.ppid
  cred := entry.cred
  threadsSelf := entry.threads.self
  uptime := entry.uptime
  cpuTime := entry.cpu.time
  memoryUsage := entry.memory.usage
  read := entry.read.transfer
  readTime := entry.read.time
  write := entry.write.transfer
  writeTime := entry.write.time
  zombie := entry.zombie
  cmdline := entry.cmdline
  secattr := entry.secattr
  filedescriptorsUsage := entry.filedescriptors.usage
  filedescriptorsLimit := entry.filedescriptors.limit

theorem scannedEntries_measured (records : List ProcessRecord) (time : ℚ) :
    (scannedEntries records time).map measured = records := by
  rw [scannedEntries, map_modify_same measured (setTime time) (fun _ => rfl), List.map_map]
  exact List.map_id _

theorem scannedEntries_link (records : List ProcessRecord) (time : ℚ) :
    (scannedEntries records time).map link = records.map recordLink := by
  rw [scannedEntries, map_modify_same link (setTime time) (fun _ => rfl), List.map_map]
  rfl

theorem scannedEntries_length (records : List ProcessRecord) (time : ℚ) :
    (scannedEntries records time).length = records.length := by
  simp [scannedEntries]

theorem scannedEntries_fresh (records : List ProcessRecord) (time : ℚ) :
    ∀ entry ∈ scannedEntries records time, entry.children = {} ∧ entry.visited = false := by
  intro entry member
  have views : (scannedEntries records time).map (fun entry => (entry.children, entry.visited)) =
      records.map (fun _ => ({}, false)) := by
    rw [scannedEntries, map_modify_same _ (setTime time) (fun _ => rfl), List.map_map]
    rfl
  have view := List.mem_map_of_mem (f := fun entry => (entry.children, entry.visited)) member
  rw [views] at view
  obtain ⟨_, _, same⟩ := List.mem_map.mp view
  exact ⟨(congrArg Prod.fst same).symm, (congrArg Prod.snd same).symm⟩

section Snapshot

variable (info : FixedSystemInfo) (pid : Int) (time : ℚ) (ref : TreeRef)
  (records : List ProcessRecord)

theorem snapshot_core :
    (snapshot info pid time ref records).pt.map core =
      (scannedEntries records time).map core ++
        (virtualPids pid (records.map recordLink)).map virtualEntry := by
  have extended := (buildTree_extended (buildInput info pid time ref) {
    ledger := ref.ledger.alloc.2
    block := ref.ledger.alloc.1
    pt := scannedEntries records time
    root := -1
  }).1
  rwa [scannedEntries_link] at extended

theorem snapshot_measured :
    (snapshot info pid time ref records).pt.map measured =
      records ++ (virtualPids pid (records.map recordLink)).map virtualRecord := by
  have cores := congrArg (List.map measured) (snapshot_core info pid time ref records)
  rw [List.map_append, List.map_map, List.map_map, List.map_map] at cores
  have scanned := scannedEntries_measured records time
  exact cores.trans (congrArg (· ++ _) scanned)

theorem snapshot_length :
    (snapshot info pid time ref records).pt.length =
      records.length + (virtualPids pid (records.map recordLink)).length := by
  simpa using congrArg List.length (snapshot_measured info pid time ref records)

theorem snapshot_usage (index : Nat)
    (inside : index < (snapshot info pid time ref records).pt.length) :
    (entryAt (snapshot info pid time ref records).pt index).cpu.usage.self =
      usageSelf (buildInput info pid time ref)
        (entryAt (snapshot info pid time ref records).pt index) :=
  (buildTree_extended (buildInput info pid time ref) _).2 index inside

theorem snapshot_unvisited (index : Nat) :
    (entryAt (snapshot info pid time ref records).pt index).visited = false := by
  by_cases inside : index < (snapshot info pid time ref records).pt.length
  · have cores := congrArg (List.map (·.visited)) (snapshot_core info pid time ref records)
    rw [List.map_append, List.map_map, List.map_map, List.map_map] at cores
    have value : (entryAt (snapshot info pid time ref records).pt index).visited ∈
        (snapshot info pid time ref records).pt.map ((·.visited) ∘ core) :=
      List.mem_map_of_mem (f := (·.visited) ∘ core) (entryAt_mem inside)
    rw [cores] at value
    rcases List.mem_append.mp value with scanned | grown
    · obtain ⟨entry, member, same⟩ := List.mem_map.mp scanned
      exact same.symm.trans (scannedEntries_fresh records time entry member).2
    · obtain ⟨_, _, same⟩ := List.mem_map.mp grown
      exact same.symm
  · rw [entryAt_of_le (Nat.not_lt.mp inside)]

theorem snapshot_linked (distinct : (records.map (·.pid)).Nodup) :
    Linked (snapshot info allProcesses time ref records).pt
      (snapshot info allProcesses time ref records).pt.length := by
  apply buildTree_linked
  · rfl
  · have pids := congrArg (List.map (·.pid)) (scannedEntries_measured records time)
    rw [List.map_map] at pids
    exact (show (scannedEntries records time).map (·.pid) = records.map (·.pid) from pids) ▸ distinct
  · exact fun entry member => (scannedEntries_fresh records time entry member).1

theorem snapshot_root :
    LastRoot (snapshot info allProcesses time ref records).pt
      (snapshot info allProcesses time ref records).pt.length
      (snapshot info allProcesses time ref records).root :=
  buildTree_root (buildInput info allProcesses time ref) rfl _ rfl

end Snapshot

/-- The built array is a well-formed forest, whatever the order of the records and however
many parents are missing. -/
theorem snapshot_wellFormed (info : FixedSystemInfo) (time : ℚ) (ref : TreeRef)
    (records : List ProcessRecord) (distinct : (records.map (·.pid)).Nodup) :
    WellFormedForest (snapshot info allProcesses time ref records).pt
      (snapshot info allProcesses time ref records).root :=
  (snapshot_linked info time ref records distinct).wellFormed (snapshot_root info time ref records)

def sampleRecords : List ProcessRecord := [
  { pid := 9, ppid := 7, cpuTime := 3, memoryUsage := 5 },
  { pid := 1, ppid := 0, cpuTime := 2, memoryUsage := 8 },
  { pid := 7, ppid := 1, cpuTime := 5, memoryUsage := 2 },
  { pid := 4, ppid := 40, cpuTime := 1, memoryUsage := 9 }]

theorem snapshot_wellFormed_sample :
    WellFormedForest (snapshot ⟨4096, 100, 4⟩ allProcesses 50 {} sampleRecords).pt
      (snapshot ⟨4096, 100, 4⟩ allProcesses 50 {} sampleRecords).root :=
  snapshot_wellFormed ⟨4096, 100, 4⟩ 50 {} sampleRecords (by decide)

end SimpleProcessMonitor
