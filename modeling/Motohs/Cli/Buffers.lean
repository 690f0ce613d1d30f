import Motohs.Cli.Tables
import Motohs.Cli.TasksInfo

/-! Whether the two tables fit the buffers that `tasks` allocates for them. The
buffers are measured by a count of tasks taken before either table is written. -/

namespace Motohs.Cli

open Lib

/-- Neither call writes more than 40 bytes for each task counted, the terminator included. -/
structure BuffersSuffice (count : UInt32) (listed measured : List Task) : Prop where
  taskList : (vTaskList listed).length ≤ bytesPerTask.toNat * count.toNat
  taskCpu : (vTaskGetRunTimeStats measured).length ≤ bytesPerTask.toNat * count.toNat

/-- How many decimal digits a number has. -/
def digits (number : UInt32) : Nat := Nat.log 10 number.toNat + 1

namespace Task

/-- The core is printed with a sign where it is negative. -/
def coreWidth (task : Task) : Nat :=
  Nat.log 10 task.affinity.toInt.natAbs + 1 + if task.affinity.toInt < 0 then 1 else 0

/-- The percentage is printed as less than one or with a sign after it. -/
def percentWidth (task : Task) : Nat := if task.percent = 0 then 3 else digits task.percent + 1

/-- What varies in the length of a row of the task list. -/
def listWidth (task : Task) : Nat :=
  digits task.prio + digits task.hwm + digits task.number + task.coreWidth

/-- What varies in the length of a row of the statistics. -/
def statsWidth (task : Task) : Nat := digits task.ticks + task.percentWidth

theorem length_percentage (task : Task) : task.percentage.length = task.percentWidth := by
  unfold percentage percentWidth
  split
  · rfl
  · rw [List.length_append, length_decimal, digits]
    rfl

theorem length_listRow (task : Task) : task.listRow.length = 22 + task.listWidth := by
  simp [listRow, listFields, List.intercalate_cons_cons, TaskName.length_padded, length_decimal,
    length_decimalInt, listWidth, digits, coreWidth]
  omega

theorem length_statsRow (task : Task) : task.statsRow.length = 19 + task.statsWidth := by
  simp [statsRow, statsFields, List.intercalate_cons_cons, TaskName.length_padded, length_decimal,
    length_percentage, statsWidth, digits]
  omega

end Task

/-- Each row takes its line feed, and the table its terminator. -/
theorem length_tableText {row : Task → List Char} {fixed : Nat} {width : Task → Nat}
    (length : ∀ task, (row task).length = fixed + width task) (tasks : List Task) :
    (tableText row tasks).length = (fixed + 1) * tasks.length + (tasks.map width).sum + 1 := by
  induction tasks with
  | nil => simp [tableText]
  | cons task rest ih =>
    simp [tableText, length] at ih ⊢
    rw [Nat.mul_add]
    omega

/-- The buffers suffice just when the digits in the rows, with the 23 and the 20 bytes
that go with them, leave room for the terminator. -/
theorem buffersSuffice_iff (count : UInt32) (listed measured : List Task) :
    BuffersSuffice count listed measured ↔
      23 * listed.length + (listed.map Task.listWidth).sum + 1 ≤ 40 * count.toNat ∧
        20 * measured.length + (measured.map Task.statsWidth).sum + 1 ≤ 40 * count.toNat := by
  have bytes : bytesPerTask.toNat = 40 := rfl
  rw [← length_tableText Task.length_listRow listed, ← length_tableText Task.length_statsRow measured,
    ← bytes]
  constructor
  · intro suffice
    exact ⟨suffice.taskList, suffice.taskCpu⟩
  · intro ⟨taskList, taskCpu⟩
    exact ⟨taskList, taskCpu⟩

/-- What the kernel writes into each of the buffers. -/
def written (listed measured : List Task) : Buffer → List Char
  | .taskList => vTaskList listed
  | .taskCpu => vTaskGetRunTimeStats measured

/-- Whether the call returns or throws, both buffers have the same size. -/
theorem allocated_eq (count : UInt32) (taskListBuffer taskCpuBuffer : List Char) :
    (tasksInfo count taskListBuffer taskCpuBuffer).allocated =
      [(.taskList, count * bytesPerTask), (.taskCpu, count * bytesPerTask)] := by
  unfold tasksInfo
  dsimp only
  split <;> rfl

/-- As long as their size does not overflow, the buffers suffice just when neither call
writes behind the end of the one allocated for it. -/
theorem buffersSuffice_iff_allocated {count : UInt32} (few : count.toNat ≤ 107374182) (listed measured : List Task) :
    BuffersSuffice count listed measured ↔
      ∀ buffer ∈ (tasksInfo count (vTaskList listed) (vTaskGetRunTimeStats measured)).allocated,
        (written listed measured buffer.1).length ≤ buffer.2.toNat := by
  have size : (count * bytesPerTask).toNat = bytesPerTask.toNat * count.toNat := by
    have bytes : bytesPerTask.toNat = 40 := rfl
    rw [UInt32.toNat_mul, bytes]
    omega
  rw [allocated_eq]
  simp only [List.forall_mem_cons, written, size]
  constructor
  · intro suffice
    exact ⟨suffice.taskList, suffice.taskCpu, by simp⟩
  · intro ⟨taskList, taskCpu, _⟩
    exact ⟨taskList, taskCpu⟩

def console (number : UInt32) : Task :=
  ⟨⟨"console".toList, by decide, by decide⟩, .blocked, 1, 2048, number, 0, 120, 3⟩

/-- A third task that starts after two were counted does not fit. -/
theorem third_task_overflows :
    ¬ BuffersSuffice 2 [console 7, console 8, console 9] [console 7, console 8, console 9] := by
  intro suffice
  have written : (vTaskList [console 7, console 8, console 9]).length = 91 := by
    rw [vTaskList, length_tableText Task.length_listRow]
    decide
  have room := suffice.taskList
  rw [written] at room
  revert room
  decide

end Motohs.Cli
