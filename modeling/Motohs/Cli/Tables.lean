import Motohs.Lib.Decimal

/-! The two tables that FreeRTOS writes, one row a task. A `Char` stands for one byte. -/

namespace Motohs.Cli

open Lib

/-- `CONFIG_FREERTOS_MAX_TASK_NAME_LEN` counts the terminator. -/
def maxTaskNameLen : Nat := 16

/-- A name as the kernel keeps it: a C string in a field of that length. -/
structure TaskName where
  chars : List Char
  short : chars.length < maxTaskNameLen
  terminated : '\x00' ∉ chars

namespace TaskName

def padded (name : TaskName) : List Char :=
  name.chars ++ List.replicate (maxTaskNameLen - 1 - name.chars.length) ' '

/-- Nothing in the name that would end a field or a row. -/
structure Clean (name : TaskName) : Prop where
  tab : '\t' ∉ name.chars
  newline : '\n' ∉ name.chars

end TaskName

inductive TaskState where
  | running
  | ready
  | blocked
  | suspended
  | deleted
  deriving DecidableEq, Repr

def TaskState.char : TaskState → Char
  | .running => 'X'
  | .ready => 'R'
  | .blocked => 'B'
  | .suspended => 'S'
  | .deleted => 'D'

structure Task where
  name : TaskName
  state : TaskState
  prio : UInt32
  hwm : UInt32
  number : UInt32
  affinity : Int16
  ticks : UInt32
  /-- Of the total run time, rounded down. -/
  percent : UInt32

namespace Task

def percentage (task : Task) : List Char :=
  if task.percent = 0 then "<1%".toList else decimal task.percent.toNat ++ ['%']

def listFields (task : Task) : List (List Char) :=
  [task.name.padded, [task.state.char], decimal task.prio.toNat, decimal task.hwm.toNat,
    decimal task.number.toNat, decimalInt task.affinity.toInt]

def statsFields (task : Task) : List (List Char) :=
  [decimal task.ticks.toNat, [], task.percentage]

/-- The row of `vTaskList`, up to its line feed. -/
def listRow (task : Task) : List Char := ['\t'].intercalate task.listFields ++ ['\r']

/-- The row of `vTaskGetRunTimeStats`, up to its line feed. -/
def statsRow (task : Task) : List Char :=
  ['\t'].intercalate (task.name.padded :: task.statsFields) ++ ['\r']

end Task

/-- What a buffer holds once the rows are written to it. -/
def tableText (row : Task → List Char) (tasks : List Task) : List Char :=
  (tasks.map row).flatMap (· ++ ['\n']) ++ ['\x00']

def vTaskList (tasks : List Task) : List Char := tableText Task.listRow tasks

def vTaskGetRunTimeStats (tasks : List Task) : List Char := tableText Task.statsRow tasks

theorem TaskName.length_padded (name : TaskName) : name.padded.length = 15 := by
  have short := name.short
  simp only [maxTaskNameLen] at short
  simp [padded, maxTaskNameLen]
  omega

theorem TaskName.mem_padded (name : TaskName) (symbol : Char) (solid : symbol ≠ ' ') :
    symbol ∈ name.padded ↔ symbol ∈ name.chars := by
  simp [padded, solid]

end Motohs.Cli
