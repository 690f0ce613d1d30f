import Motohs.Cli.Join

/-! Whether `tasks` runs to its end when its two tables are taken at different times. -/

namespace Motohs.Cli

open Lib

/-- The row printed for a task, given the rows of the statistics. -/
def Task.row (measured : List Task) (task : Task) : TaskInfo :=
  task.joined ((task.stats? measured).getD task)

theorem stats?_isSome_iff {task : Task} {measured : List Task} :
    (task.stats? measured).isSome ↔ ∃ stats ∈ measured, SameName task stats := by
  simp [Task.stats?, List.find?_isSome]

namespace TasksRun

/-- The call returns 0 with nothing left allocated. -/
structure RunsToEnd (run : TasksRun) : Prop where
  returns : run.result = .ok 0
  freed : run.live = []

end TasksRun

def readTables (listed measured : List Task) : Except Thrown InfoStat :=
  readInfoStat (splitString (cString '\x00' (vTaskList listed)))
    (splitString (cString '\x00' (vTaskGetRunTimeStats measured)))

def tasksRun (count : UInt32) (listed measured : List Task) : TasksRun :=
  tasksInfo count (vTaskList listed) (vTaskGetRunTimeStats measured)

theorem tasksRun_of_ok (read : readTables listed measured = .ok infoStat) (count : UInt32) :
    tasksRun count listed measured =
      ⟨tableHeader ++ infoStat.values.flatMap printTaskInfoLine, infoStat.values,
        [(.taskList, count * bytesPerTask), (.taskCpu, count * bytesPerTask)], [], .ok 0⟩ := by
  unfold readTables at read
  simp only [tasksRun, tasksInfo, read]
  rfl

/-- Whatever the tables are, a call that returns has read every row. -/
theorem readTables_of_returns (returns : (tasksRun count listed measured).result = .ok 0) :
    ∃ infoStat, readTables listed measured = .ok infoStat := by
  cases read : readTables listed measured with
  | ok infoStat => exact ⟨infoStat, rfl⟩
  | error thrown =>
    unfold readTables at read
    simp only [tasksRun, tasksInfo, read] at returns
    cases returns

section

variable {listed measured : List Task} (cleanListed : ∀ task ∈ listed, task.name.Clean)
variable (cleanMeasured : ∀ task ∈ measured, task.name.Clean)
include cleanListed cleanMeasured

theorem readTables_eq : readTables listed measured =
    readInfoStat (listed.map Task.listRow) (measured.map Task.statsRow) := by
  rw [readTables, splitString_vTaskList cleanListed, splitString_vTaskGetRunTimeStats cleanMeasured]

variable (fits : ∀ task ∈ listed, task.number.toNat < 2 ^ 31)
include fits

theorem readTables_ok (found : ∀ task ∈ listed, ∃ stats ∈ measured, SameName task stats) :
    readTables listed measured =
      .ok (SortedMap.empty.insertAll (listed.map fun task => (task.key, task.row measured))) := by
  rw [readTables_eq cleanListed cleanMeasured]
  refine readLoop_eq_ok_iff.mpr ⟨_, ?_, rfl⟩
  rw [List.forall₂_map_left_iff, List.forall₂_map_right_iff, List.forall₂_same]
  intro task member
  obtain ⟨stats, same⟩ := Option.isSome_iff_exists.mp (stats?_isSome_iff.mpr (found task member))
  simp only [readToken_listRow (cleanListed task member) (fits task member), Task.row, same,
    Option.getD_some]

/-- The command runs to its end just when every row of the task list has a row of
the same name in the statistics. -/
theorem runsToEnd_iff (count : UInt32) :
    (tasksRun count listed measured).RunsToEnd ↔
      ∀ task ∈ listed, ∃ stats ∈ measured, SameName task stats := by
  constructor
  · rintro ⟨returns, _⟩ task member
    obtain ⟨infoStat, read⟩ := readTables_of_returns returns
    rw [readTables_eq cleanListed cleanMeasured] at read
    obtain ⟨result, turn⟩ := read_of_readLoop read (List.mem_map_of_mem member)
    rw [readToken_listRow (cleanListed task member) (fits task member)] at turn
    rw [← stats?_isSome_iff]
    cases stats : task.stats? measured with
    | some _ => rfl
    | none =>
      rw [stats] at turn
      cases turn
  · intro found
    rw [tasksRun_of_ok (readTables_ok cleanListed cleanMeasured fits found)]
    exact ⟨rfl, rfl⟩

end

/-- A task that is there when the first table is taken and gone before the second. -/
def shortLived : Task :=
  ⟨⟨"worker".toList, by decide, by decide⟩, .blocked, 1, 2048, 7, 0, 120, 3⟩

theorem shortLived_throws : ¬ (tasksRun 1 [shortLived] []).RunsToEnd := by
  rintro ⟨returns, _⟩
  have thrown : (tasksRun 1 [shortLived] []).result = .error .invalidArgument := rfl
  rw [thrown] at returns
  cases returns

def reporter : Task :=
  ⟨⟨"report".toList, by decide, by decide⟩, .running, 3, 1024, 12, -1, 900, 40⟩

def latecomer : Task :=
  ⟨⟨"late one".toList, by decide, by decide⟩, .ready, 2, 512, 13, 1, 1, 0⟩

/-- A task that is only there for the second table does no harm. -/
theorem runsToEnd_latecomer :
    (tasksRun 2 [reporter, shortLived] [latecomer, shortLived, reporter]).RunsToEnd := by
  have clean : ∀ task ∈ [latecomer, shortLived, reporter], task.name.Clean := by
    simp only [List.forall_mem_cons]
    exact ⟨⟨by decide, by decide⟩, ⟨by decide, by decide⟩, ⟨by decide, by decide⟩, nofun⟩
  have listed : ∀ task ∈ [reporter, shortLived], task.name.Clean := by
    intro task member
    rcases List.mem_pair.mp member with rfl | rfl
    · exact clean reporter (.tail _ (.tail _ (.head _)))
    · exact clean shortLived (.tail _ (.head _))
  exact (runsToEnd_iff listed clean (by decide) 2).mpr (by simp [SameName])

end Motohs.Cli
