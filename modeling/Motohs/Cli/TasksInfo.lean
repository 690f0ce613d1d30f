import Mathlib.Order.Fin.Basic
import Motohs.Lib.Decimal
import Motohs.Lib.InputStream
import Motohs.Lib.Loop
import Motohs.Lib.SortedMap
import Motohs.Lib.Text

/-! The `tasks` command: both tables are read back row by row, a row of the task
list is joined with the first row of the statistics in which its name is found, and
the joined rows are printed from a map over the task number. -/

namespace Motohs.Cli

open Lib

/-- `task_info_t`. -/
structure TaskInfo where
  name : List Char := []
  status : List Char := []
  prio : List Char := []
  hwm : List Char := []
  number : List Char := []
  affinity : List Char := []
  cpuTicks : List Char := []
  cpuPercents : List Char := []
  deriving DecidableEq, Repr

inductive Thrown where
  | outOfRange
  | invalidArgument
  /-- No exception: `pop_back` of an empty string is undefined. -/
  | popBackOfEmpty
  deriving DecidableEq, Repr

/-- The row joined with its statistics, `mem_str` as it is left. -/
def appendStats (memStr : List Char) (cpuStat : List (List Char)) : Except Thrown (List Char) :=
  if memStr.isEmpty then .error .popBackOfEmpty
  else
    let memStr := memStr.dropLast
    let taskName :=
      match find ['\t'] memStr with
      | some tab => memStr.take tab
      | none => memStr
    match cpuStat.find? fun token => (find taskName token).isSome with
    | none => .ok memStr
    | some token =>
      -- without a count `substr` gives all the rest
      match substr? token (taskName.length + 1) token.length with
      | none => .error .outOfRange
      | some stats => .ok (memStr ++ ['\t', '\t'] ++ stats)

def splitLine (str : List Char) : TaskInfo :=
  match InputStream.pieces '\t' str with
  | [name, status, prio, hwm, number, affinity, _, cpuTicks, _, cpuPercents] =>
    { name, status, prio, hwm, number, affinity, cpuTicks, cpuPercents }
  | _ => {}

def splitString (str : List Char) : List (List Char) := InputStream.pieces '\n' str

/-- `std::stoi`, for an `int` of 32 bits. -/
def stoi (str : List Char) : Except Thrown Int :=
  match strtol str with
  | none => .error .invalidArgument
  | some value =>
    if -2 ^ 31 ≤ value ∧ value < 2 ^ 31 then .ok value else .error .outOfRange

/-- An `int` made a `uint8_t`, the key of `info_stat`. -/
def toUint8 (value : Int) : Fin 256 := Fin.ofNat 256 (value % 256).toNat

abbrev InfoStat := SortedMap (Fin 256) TaskInfo

/-- One turn of the loop over `mem_stat`, up to the insertion. -/
def readToken (cpuStat : List (List Char)) (token : List Char) : Except Thrown (Fin 256 × TaskInfo) := do
  let token ← appendStats token cpuStat
  let tski := splitLine token
  let number ← stoi tski.number
  pure (toUint8 number, tski)

def readInfoStat (memStat cpuStat : List (List Char)) : Except Thrown InfoStat :=
  readLoop (readToken cpuStat) (fun map pair => map.insert pair.1 pair.2) SortedMap.empty memStat

/-- `std::setw` for a string: filled up on the left. -/
def setw (width : Nat) (text : List Char) : List Char :=
  List.replicate (width - text.length) ' ' ++ text

def printTaskInfoLine (info : TaskInfo) : List Char :=
  setw 16 info.name ++ setw 10 info.status ++ setw 10 info.prio ++ setw 10 info.hwm ++
    setw 10 info.number ++ setw 10 info.affinity ++ setw 13 info.cpuTicks ++
    setw 10 info.cpuPercents ++ ['\n']

def tableHeader : List Char :=
  ("\nTask name\t      Status   Priority    HWM        #      Affinity  " ++
    "CPU ticks    CPU %\n").toList

def bytesPerTask : UInt32 := 40

inductive Buffer where
  | taskList
  | taskCpu
  deriving DecidableEq, Repr

/-- What a call of `tasks_info` has done when it returns or throws. -/
structure TasksRun where
  console : List Char
  /-- The arguments of the calls to `print_task_info_line`. -/
  printed : List TaskInfo
  /-- The buffers asked of `malloc`, with their sizes. -/
  allocated : List (Buffer × UInt32)
  /-- Those that are not freed. -/
  live : List (Buffer × UInt32)
  result : Except Thrown Int

def free (buffer : Buffer) (live : List (Buffer × UInt32)) : List (Buffer × UInt32) :=
  live.filter (·.1 != buffer)

/-- `count` is what `uxTaskGetNumberOfTasks` returns, the buffers are as the two
calls to the kernel leave them. -/
def tasksInfo (count : UInt32) (taskListBuffer taskCpuBuffer : List Char) : TasksRun :=
  let size := count * bytesPerTask
  let allocated := [(.taskList, size), (.taskCpu, size)]
  let memStat := splitString (cString '\x00' taskListBuffer)
  let cpuStat := splitString (cString '\x00' taskCpuBuffer)
  match readInfoStat memStat cpuStat with
  | .error thrown => ⟨[], [], allocated, allocated, .error thrown⟩
  | .ok infoStat =>
    ⟨tableHeader ++ infoStat.values.flatMap printTaskInfoLine, infoStat.values, allocated,
      free .taskCpu (free .taskList allocated), .ok 0⟩

end Motohs.Cli
