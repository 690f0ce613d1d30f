import Motohs.Cli.Listing

/-! Whose CPU time a row shows. Rows are joined by name, and names need not be unique. -/

namespace Motohs.Cli

open Lib

/-- What a row shows: its task, and the time that task has used. -/
def TaskInfo.figures (row : TaskInfo) : List (List Char) :=
  [row.name, row.number, row.cpuTicks, row.cpuPercents]

/-- What the statistics report of a task. The percentage runs to the end of its row. -/
def Task.figures (task : Task) : List (List Char) :=
  [task.name.padded, decimal task.number.toNat, decimal task.ticks.toNat, task.percentage ++ ['\r']]

/-- The call returns and has printed one row for each task, with the figures of that task. -/
def TasksRun.Attributes (run : TasksRun) (tasks : List Task) : Prop :=
  run.result = .ok 0 ∧ (run.printed.map TaskInfo.figures).Perm (tasks.map Task.figures)

/-- Tasks of the same name, as it is padded, have used the same time. -/
def SameNameSameTime (tasks : List Task) : Prop :=
  ∀ one ∈ tasks, ∀ other ∈ tasks, SameName one other →
    one.ticks = other.ticks ∧ one.percent = other.percent

theorem percentage_injective {one other : Task} (same : one.percentage = other.percentage) :
    one.percent = other.percent := by
  unfold Task.percentage at same
  have sign (number : Nat) : "<1%".toList ≠ decimal number ++ ['%'] := by
    intro equal
    have member : '<' ∈ decimal number ++ ['%'] := equal ▸ List.mem_cons_self
    simp [not_mem_decimal '<' rfl] at member
  split at same
  · rename_i zero
    split at same
    · rename_i zero'
      exact zero.trans zero'.symm
    · exact absurd same (sign _)
  · split at same
    · exact absurd same.symm (sign _)
    · exact UInt32.toNat_inj.mp (decimal_injective (List.append_cancel_right same))

/-- The first task of a name lends its statistics to all of that name. -/
theorem stats?_eq_of_sameName {one other : Task} (same : SameName one other) (tasks : List Task) :
    one.stats? tasks = other.stats? tasks := by
  have matching : (fun task => decide (SameName one task)) = fun task => decide (SameName other task) := by
    funext task
    rw [decide_eq_decide, SameName, SameName, same]
  exact congrArg tasks.find? matching

theorem stats?_mem {task stats : Task} {tasks : List Task} (found : task.stats? tasks = some stats) :
    stats ∈ tasks ∧ SameName task stats :=
  ⟨List.mem_of_find?_eq_some found, by simpa using List.find?_some found⟩

theorem key_distinct_of_lt {tasks : List Task} (small : ∀ task ∈ tasks, task.number.toNat < 256) :
    OrderedBelow256 tasks := by
  intro one first other second less
  rw [Nat.mod_eq_of_lt (small one first), Nat.mod_eq_of_lt (small other second)]
  exact less

/-- The figures printed for a task are those of the first task of its name. -/
theorem printed_perm {tasks : List Task} (clean : ∀ task ∈ tasks, task.name.Clean)
    (distinct : tasks.Pairwise fun one other => one.number ≠ other.number)
    (small : ∀ task ∈ tasks, task.number.toNat < 256) (count : UInt32) :
    (tasksRun count tasks tasks).result = .ok 0 ∧
      (tasksRun count tasks tasks).printed.Perm (tasks.map (Task.row tasks)) := by
  have read := readTables_ok clean clean (fun task member => (small task member).trans (by decide))
    fun task member => ⟨task, member, rfl⟩
  rw [tasksRun_of_ok read]
  have entries := entries_perm (Task.row tasks)
    (keys_distinct (key_distinct_of_lt small) distinct)
  refine ⟨rfl, ?_⟩
  have rows := entries.map Prod.snd
  rw [List.map_map] at rows
  exact rows

theorem eq_of_number {tasks : List Task}
    (distinct : tasks.Pairwise fun one other => one.number ≠ other.number)
    (first : one ∈ tasks) (second : other ∈ tasks) (same : one.number = other.number) : one = other :=
  List.inj_on_of_nodup_map (List.pairwise_map.mpr distinct) first second same

/-- A row with the figures of its task was joined with statistics equal to the task's own. -/
theorem row_figures_iff {task stats : Task} {tasks : List Task} (found : task.stats? tasks = some stats) :
    (task.row tasks).figures = task.figures ↔
      task.ticks = stats.ticks ∧ task.percent = stats.percent := by
  have row : (task.row tasks).figures = [task.name.padded, decimal task.number.toNat,
      decimal stats.ticks.toNat, stats.percentage ++ ['\r']] := by
    rw [Task.row, found]
    rfl
  rw [row, Task.figures]
  constructor
  · intro same
    simp only [List.cons.injEq, List.append_cancel_right_eq, and_true, true_and] at same
    exact ⟨UInt32.toNat_inj.mp (decimal_injective same.1.symm), percentage_injective same.2.symm⟩
  · rintro ⟨ticks, percent⟩
    rw [ticks, Task.percentage, Task.percentage, percent]

theorem stats?_exists {task : Task} {tasks : List Task} (member : task ∈ tasks) :
    ∃ stats, task.stats? tasks = some stats :=
  Option.isSome_iff_exists.mp (stats?_isSome_iff.mpr ⟨task, member, rfl⟩)

theorem TasksRun.Attributes.row (attributes : (tasksRun count tasks tasks).Attributes tasks)
    (member : task ∈ tasks) :
    ∃ info ∈ (tasksRun count tasks tasks).printed, info.figures = task.figures :=
  List.mem_map.mp (attributes.2.mem_iff.mpr (List.mem_map_of_mem member))

theorem TasksRun.Attributes.clean {tasks : List Task}
    (attributes : (tasksRun count tasks tasks).Attributes tasks) : ∀ task ∈ tasks, task.name.Clean := by
  obtain ⟨infoStat, read⟩ := readTables_of_returns attributes.1
  refine clean_of_printed read fun task member => ?_
  obtain ⟨info, printed, figures⟩ := attributes.row member
  rw [tasksRun_of_ok read] at printed
  exact ⟨info, printed, (List.cons.inj figures).1⟩

/-- The row with the figures of a task is the one printed for it: no other has its number. -/
theorem TasksRun.Attributes.own {tasks : List Task}
    (attributes : (tasksRun count tasks tasks).Attributes tasks)
    (distinct : tasks.Pairwise fun one other => one.number ≠ other.number)
    (small : ∀ task ∈ tasks, task.number.toNat < 256) (member : task ∈ tasks) :
    (task.row tasks).figures = task.figures := by
  obtain ⟨info, printed, figures⟩ := attributes.row member
  have rows := (printed_perm attributes.clean distinct small count).2
  obtain ⟨other, among, rfl⟩ := List.mem_map.mp (rows.mem_iff.mp printed)
  have number := (List.cons.inj (List.cons.inj figures).2).1
  have same := UInt32.toNat_inj.mp (decimal_injective number)
  rw [eq_of_number distinct among member same] at figures
  exact figures

/-- With both tables taken from the same tasks in the same order, every row shows the
figures of its own task just when no name has a tab or a line feed in it and tasks of
the same name have the same figures. -/
theorem attributes_iff (count : UInt32) (tasks : List Task)
    (distinct : tasks.Pairwise fun one other => one.number ≠ other.number)
    (small : ∀ task ∈ tasks, task.number.toNat < 256) :
    (tasksRun count tasks tasks).Attributes tasks ↔
      (∀ task ∈ tasks, task.name.Clean) ∧ SameNameSameTime tasks := by
  constructor
  · intro attributes
    refine ⟨attributes.clean, fun one first other second same => ?_⟩
    obtain ⟨stats, lent⟩ := stats?_exists first
    have lentToo : other.stats? tasks = some stats := (stats?_eq_of_sameName same tasks).symm.trans lent
    have left := (row_figures_iff lent).mp (attributes.own distinct small first)
    have right := (row_figures_iff lentToo).mp (attributes.own distinct small second)
    exact ⟨left.1.trans right.1.symm, left.2.trans right.2.symm⟩
  · rintro ⟨clean, same⟩
    obtain ⟨returns, printed⟩ := printed_perm clean distinct small count
    refine ⟨returns, (printed.map TaskInfo.figures).trans (.of_eq ?_)⟩
    rw [List.map_map]
    apply List.map_congr_left
    intro task member
    obtain ⟨stats, lent⟩ := stats?_exists member
    obtain ⟨among, named⟩ := stats?_mem lent
    exact (row_figures_iff lent).mpr (same task member stats among named)

/-- An idle task, of which there is one for each core. -/
def idle (number ticks percent : UInt32) : Task :=
  ⟨⟨"IDLE".toList, by decide, by decide⟩, .ready, 0, 1024, number, 0, ticks, percent⟩

/-- The second idle task is shown with the time of the first. -/
theorem second_idle_misattributed :
    ¬ (tasksRun 2 [idle 4 900 90, idle 5 100 10] [idle 4 900 90, idle 5 100 10]).Attributes
      [idle 4 900 90, idle 5 100 10] := by
  rintro ⟨_, shown⟩
  have printed : (tasksRun 2 [idle 4 900 90, idle 5 100 10]
      [idle 4 900 90, idle 5 100 10]).printed.map TaskInfo.figures =
        [(idle 4 900 90).figures, (idle 5 900 90).figures] := rfl
  have second : (idle 5 100 10).figures ∈ [(idle 4 900 90).figures, (idle 5 900 90).figures] :=
    printed ▸ shown.mem_iff.mpr (by simp)
  revert second
  decide

theorem attributes_equal_idles :
    (tasksRun 2 [idle 4 900 90, idle 5 900 90] [idle 4 900 90, idle 5 900 90]).Attributes
      [idle 4 900 90, idle 5 900 90] :=
  (attributes_iff 2 _ (by simp; decide) (by simp; decide)).mpr
    ⟨by simpa using ⟨⟨by decide, by decide⟩, ⟨by decide, by decide⟩⟩, by simp [SameNameSameTime, idle]⟩

end Motohs.Cli
