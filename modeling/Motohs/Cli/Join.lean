import Motohs.Cli.Tables
import Motohs.Cli.Rows

/-! What the join makes of rows as FreeRTOS writes them. A padded name is longer
than any number in a row, so it is found only where another row has the same one. -/

namespace Motohs.Cli

open Lib

/-- The other row has the name of this one, as both are padded. -/
def SameName (task other : Task) : Prop := other.name.padded = task.name.padded

instance (task other : Task) : Decidable (SameName task other) :=
  inferInstanceAs (Decidable (_ = _))

namespace Task

/-- The statistics that a row of the task list is joined with. -/
def stats? (measured : List Task) (task : Task) : Option Task := measured.find? (SameName task ·)

/-- The row printed for a task whose statistics are taken from another row. -/
def joined (task stats : Task) : TaskInfo where
  name := task.name.padded
  status := [task.state.char]
  prio := decimal task.prio.toNat
  hwm := decimal task.hwm.toNat
  number := decimal task.number.toNat
  affinity := decimalInt task.affinity.toInt
  cpuTicks := decimal stats.ticks.toNat
  -- the carriage return of the row of statistics stays
  cpuPercents := stats.percentage ++ ['\r']

def key (task : Task) : Fin 256 := toUint8 (Int.ofNat task.number.toNat)

end Task

theorem length_decimal_le (number : UInt32) : (decimal number.toNat).length ≤ 10 := by
  rw [decimal, Nat.length_toDigits_le_iff (by decide) (by decide)]
  have bounded := number.toNat_lt
  omega

theorem length_percentage_le (task : Task) : task.percentage.length ≤ 11 := by
  unfold Task.percentage
  split
  · decide
  · have short := length_decimal_le task.percent
    rw [List.length_append, List.length_singleton]
    omega

/-- What ends a row, or the text it is in. -/
def closers : List Char := ['\n', '\x00']

theorem closers_plain (closer : symbol ∈ closers) :
    symbol.isDigit = false ∧ symbol ∉ "\t\r-<1% XRBSD".toList := by
  simp only [closers, List.mem_cons, List.not_mem_nil, or_false] at closer
  rcases closer with rfl | rfl <;> decide

theorem closed_padded {name : TaskName} (clean : name.Clean) :
    ∀ symbol ∈ closers, symbol ∉ name.padded := by
  intro symbol closer
  simp only [closers, List.mem_cons, List.not_mem_nil, or_false] at closer
  rcases closer with rfl | rfl
  · exact (name.mem_padded '\n' (by decide)).not.mpr clean.newline
  · exact (name.mem_padded '\x00' (by decide)).not.mpr name.terminated

theorem not_mem_percentage (task : Task) (symbol : Char) (other : symbol.isDigit = false)
    (sign : symbol ∉ "<1%".toList) : symbol ∉ task.percentage := by
  unfold Task.percentage
  split
  · exact sign
  · have percent : symbol ≠ '%' := fun same => sign (by simp [same])
    simp [not_mem_decimal symbol other, percent]

/-- A row is closed as far as its fields are. -/
theorem closed_row {fields : List (List Char)} (closer : symbol ∈ closers)
    (closed : ∀ field ∈ fields, symbol ∉ field) : symbol ∉ ['\t'].intercalate fields ++ ['\r'] := by
  have plain := (closers_plain closer).2
  intro member
  rcases List.mem_append.mp member with inside | last
  · rcases mem_intercalate inside with rfl | ⟨field, among, within⟩
    · exact plain (by decide)
    · exact closed field among within
  · rw [List.mem_singleton.mp last] at plain
    exact plain (by decide)

theorem closed_listRow {task : Task} (clean : task.name.Clean) :
    ∀ symbol ∈ closers, symbol ∉ task.listRow := by
  intro symbol closer
  obtain ⟨digit, plain⟩ := closers_plain closer
  have sign : symbol ≠ '-' := by
    rintro rfl
    exact plain (by decide)
  have state : symbol ≠ task.state.char := by
    rintro rfl
    revert plain
    cases task.state <;> decide
  apply closed_row closer
  simp [Task.listFields, closed_padded clean symbol closer, state, not_mem_decimal symbol digit,
    not_mem_decimalInt symbol digit sign]

theorem closed_statsRow {task : Task} (clean : task.name.Clean) :
    ∀ symbol ∈ closers, symbol ∉ task.statsRow := by
  intro symbol closer
  obtain ⟨digit, plain⟩ := closers_plain closer
  have sign : symbol ∉ "<1%".toList := by
    intro member
    simp at member
    rcases member with rfl | rfl | rfl <;> exact plain (by decide)
  apply closed_row closer
  simp [Task.statsFields, closed_padded clean symbol closer, not_mem_decimal symbol digit,
    not_mem_percentage task symbol digit sign]

/-- The rows of a table are read back as they were written. -/
theorem splitString_tableText {row : Task → List Char}
    (closed : ∀ task ∈ tasks, ∀ symbol ∈ closers, symbol ∉ row task) :
    splitString (cString '\x00' (tableText row tasks)) = tasks.map row := by
  have terminated : '\x00' ∉ (tasks.map row).flatMap (· ++ ['\n']) := by
    intro member
    obtain ⟨line, among, inside⟩ := List.mem_flatMap.mp member
    obtain ⟨task, listed, rfl⟩ := List.mem_map.mp among
    rcases List.mem_append.mp inside with row | newline
    · exact closed task listed '\x00' (by decide) row
    · exact absurd (List.mem_singleton.mp newline) (by decide)
  rw [tableText, cString_append terminated, splitString]
  apply InputStream.pieces_terminated
  intro line among
  obtain ⟨task, listed, rfl⟩ := List.mem_map.mp among
  exact closed task listed '\n' (by decide)

theorem splitString_vTaskList (clean : ∀ task ∈ tasks, task.name.Clean) :
    splitString (cString '\x00' (vTaskList tasks)) = tasks.map Task.listRow :=
  splitString_tableText fun task listed => closed_listRow (clean task listed)

theorem splitString_vTaskGetRunTimeStats (clean : ∀ task ∈ tasks, task.name.Clean) :
    splitString (cString '\x00' (vTaskGetRunTimeStats tasks)) = tasks.map Task.statsRow :=
  splitString_tableText fun task listed => closed_statsRow (clean task listed)

theorem tab_not_mem_padded {name : TaskName} (clean : name.Clean) : '\t' ∉ name.padded :=
  (name.mem_padded '\t' (by decide)).not.mpr clean.tab

/-- What follows the name in a row of the statistics. -/
def Task.statsTail (task : Task) : List Char :=
  decimal task.ticks.toNat ++ '\t' :: '\t' :: (task.percentage ++ ['\r'])

theorem statsRow_eq (task : Task) : task.statsRow = task.name.padded ++ '\t' :: task.statsTail := by
  simp [Task.statsRow, Task.statsFields, Task.statsTail, List.intercalate_cons_cons]

/-- Only a row of the same name has the name in it: the other fields are too short. -/
theorem infix_statsRow_iff {task : Task} (clean : task.name.Clean) (other : Task) :
    task.name.padded <:+: other.name.padded ++ '\t' :: other.statsTail ↔ SameName task other := by
  have width := task.name.length_padded
  have ticksShort := length_decimal_le other.ticks
  apply infix_stats_iff (tab_not_mem_padded clean) (other.name.length_padded.trans width.symm) (by omega)
  intro within
  have short := length_percentage_le other
  have long := within.length_le
  rw [List.length_append, List.length_singleton] at long
  omega

/-- The fields of a row of the task list joined with a row of the statistics. -/
def joinedFields (task stats : Task) : List (List Char) :=
  task.listFields ++ [[], decimal stats.ticks.toNat, []] ++ [stats.percentage ++ ['\r']]

theorem appendStats_listRow {task : Task} (clean : task.name.Clean) (measured : List Task) :
    appendStats task.listRow (measured.map Task.statsRow) =
      .ok (match task.stats? measured with
        | none => ['\t'].intercalate task.listFields
        | some stats => ['\t'].intercalate (joinedFields task stats)) := by
  have front : ['\t'].intercalate task.listFields =
      task.name.padded ++ '\t' :: ['\t'].intercalate task.listFields.tail := by
    simp [Task.listFields, List.intercalate_cons_cons]
  have width : ∀ other ∈ measured, other.name.padded.length = task.name.padded.length :=
    fun other _ => other.name.length_padded.trans task.name.length_padded.symm
  have search : measured.find? (·.name.padded = task.name.padded) = task.stats? measured := rfl
  rw [Task.listRow, front, funext statsRow_eq,
    appendStats_eq (·.name.padded) Task.statsTail measured (tab_not_mem_padded clean) width
      (fun other _ => infix_statsRow_iff clean other), search]
  cases task.stats? measured with
  | none => rfl
  | some stats =>
    simp [joinedFields, Task.listFields, Task.statsTail, List.intercalate_cons_cons]

theorem tab_not_mem_listFields {task : Task} (clean : task.name.Clean) :
    ∀ field ∈ task.listFields, '\t' ∉ field := by
  have state : '\t' ≠ task.state.char := by cases task.state <;> decide
  simp [Task.listFields, tab_not_mem_padded clean, state, not_mem_decimal '\t' rfl,
    not_mem_decimalInt '\t' rfl (by decide)]

theorem tab_not_mem_joinedFields {task : Task} (clean : task.name.Clean) (stats : Task) :
    ∀ field ∈ joinedFields task stats, '\t' ∉ field := by
  have listed := tab_not_mem_listFields clean
  simp only [Task.listFields, List.forall_mem_cons] at listed
  simp [joinedFields, Task.listFields, listed, not_mem_decimal '\t' rfl,
    not_mem_percentage stats '\t' rfl (by decide)]

theorem splitLine_joined {task : Task} (clean : task.name.Clean) (stats : Task) :
    splitLine (['\t'].intercalate (joinedFields task stats)) = task.joined stats := by
  have nonempty : joinedFields task stats ≠ [] := by simp [joinedFields]
  have last : (joinedFields task stats).getLast nonempty ≠ [] := by simp [joinedFields]
  rw [splitLine, InputStream.pieces_intercalate (tab_not_mem_joinedFields clean stats) nonempty last]
  rfl

/-- Without statistics the row has too few fields and comes out empty. -/
theorem splitLine_listFields {task : Task} (clean : task.name.Clean) :
    splitLine (['\t'].intercalate task.listFields) = {} := by
  have nonempty : task.listFields ≠ [] := by simp [Task.listFields]
  have last : task.listFields.getLast nonempty ≠ [] := decimalInt_ne_nil _
  rw [splitLine, InputStream.pieces_intercalate (tab_not_mem_listFields clean) nonempty last]
  rfl

theorem stoi_decimal (fits : number < 2 ^ 31) : stoi (decimal number) = .ok (Int.ofNat number) := by
  rw [stoi, strtol_decimal]
  have range : -2 ^ 31 ≤ Int.ofNat number ∧ Int.ofNat number < 2 ^ 31 := by
    rw [Int.ofNat_eq_natCast]
    omega
  simp only [range, and_self, ↓reduceIte]

/-- A turn of the loop throws just when the row of the task list has no statistics. -/
theorem readToken_listRow {task : Task} (clean : task.name.Clean) (fits : task.number.toNat < 2 ^ 31)
    (measured : List Task) :
    readToken (measured.map Task.statsRow) task.listRow =
      match task.stats? measured with
      | none => .error .invalidArgument
      | some stats => .ok (task.key, task.joined stats) := by
  rw [readToken, appendStats_listRow clean]
  cases task.stats? measured with
  | none =>
    change (do let number ← stoi (splitLine _).number; pure _) = _
    rw [splitLine_listFields clean]
    rfl
  | some stats =>
    change (do let number ← stoi (splitLine _).number; pure (toUint8 number, splitLine _)) = _
    rw [splitLine_joined clean]
    change (do let number ← stoi (decimal _); pure (toUint8 number, task.joined stats)) = _
    rw [stoi_decimal fits]
    rfl

end Motohs.Cli
