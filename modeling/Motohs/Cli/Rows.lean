import Mathlib.Data.List.Find
import Motohs.Cli.TasksInfo

/-! The join over rows of any two tables that have names of one width in front. The
name is looked for in the whole row, and is found only where it is the row's name. -/

namespace Motohs.Cli

open Lib InputStream

/-- A name without tabs is in a row of statistics only as the name of the row, when
the other fields have no room for it. -/
theorem infix_stats_iff {name other ticks percent : List Char} (tab : '\t' ∉ name)
    (width : other.length = name.length) (ticksShort : ticks.length < name.length)
    (percentApart : ¬ name <:+: percent) :
    name <:+: other ++ '\t' :: (ticks ++ '\t' :: '\t' :: percent) ↔ other = name := by
  have fields : other ++ '\t' :: (ticks ++ '\t' :: '\t' :: percent) =
      other ++ '\t' :: (ticks ++ '\t' :: ([] ++ '\t' :: percent)) := rfl
  rw [fields, infix_across_iff tab, infix_across_iff tab, infix_across_iff tab]
  constructor
  · intro within
    rcases within with inName | inTicks | inNothing | inPercent
    · exact (inName.eq_of_length width.symm).symm
    · have long := inTicks.length_le
      omega
    · have long := inNothing.length_le
      rw [List.length_nil] at long
      omega
    · exact absurd inPercent percentApart
  · intro same
    exact .inl (same ▸ List.infix_rfl)

/-- The search for a name comes to the first row of that name. -/
theorem find?_rows {Row : Type} (nameOf text : Row → List Char) {rows : List Row} {name : List Char}
    (found : ∀ row ∈ rows, name <:+: text row ↔ nameOf row = name) :
    (rows.map text).find? (fun token => (find name token).isSome) =
      (rows.find? (nameOf · = name)).map text := by
  rw [List.find?_map]
  congr 1
  apply List.find?_congr
  intro row member
  rw [Function.comp_apply, Bool.eq_iff_iff, find_isSome_iff, found row member, decide_eq_true_iff]

/-- `append_stats` on rows with names of one width: it takes the first row of the same
name, and of it what follows the name. -/
theorem appendStats_eq {Row : Type} (nameOf tail : Row → List Char) (rows : List Row)
    {name fields : List Char} (tab : '\t' ∉ name)
    (width : ∀ row ∈ rows, (nameOf row).length = name.length)
    (found : ∀ row ∈ rows, name <:+: nameOf row ++ '\t' :: tail row ↔ nameOf row = name) :
    appendStats (name ++ '\t' :: fields ++ ['\r']) (rows.map fun row => nameOf row ++ '\t' :: tail row) =
      .ok (match rows.find? (nameOf · = name) with
        | none => name ++ '\t' :: fields
        | some row => name ++ '\t' :: fields ++ ['\t', '\t'] ++ tail row) := by
  have present : (name ++ '\t' :: fields ++ ['\r']).isEmpty = false := by simp
  have first : (rows.map fun row => nameOf row ++ '\t' :: tail row).find?
      (fun token => (find name token).isSome) =
        (rows.find? (nameOf · = name)).map fun row => nameOf row ++ '\t' :: tail row :=
    find?_rows nameOf _ found
  simp only [appendStats, present, Bool.false_eq_true, ↓reduceIte, List.dropLast_concat,
    find_singleton tab, List.take_left, first]
  cases search : rows.find? (nameOf · = name) with
  | none => rfl
  | some row =>
    have member := List.mem_of_find?_eq_some search
    have position : name.length + 1 = (nameOf row ++ ['\t']).length := by
      rw [List.length_append, width row member]
      rfl
    have split : nameOf row ++ '\t' :: tail row = (nameOf row ++ ['\t']) ++ tail row := by simp
    rw [Option.map_some]
    simp only [position]
    rw [split, substr?_append, List.take_of_length_le]
    rw [List.length_append]
    omega

/-- A field as the tables have it: something, on one line and without a tab. -/
structure Cell where
  chars : List Char
  present : chars ≠ []
  tab : '\t' ∉ chars
  carriageReturn : '\r' ∉ chars
  newline : '\n' ∉ chars

/-- A name filled up to the width of the tables. -/
structure NameCell extends Cell where
  width : chars.length = 15

structure TaskRow where
  name : NameCell
  state : Cell
  prio : Cell
  hwm : Cell
  number : Cell
  core : Cell

structure CpuRow where
  name : NameCell
  ticks : Cell
  percent : Cell
  ticksShort : ticks.chars.length < 15
  percentShort : percent.chars.length < 15

namespace TaskRow

def fields (row : TaskRow) : List (List Char) :=
  [row.name.chars, row.state.chars, row.prio.chars, row.hwm.chars, row.number.chars, row.core.chars]

def text (row : TaskRow) : List Char := ['\t'].intercalate row.fields ++ ['\r']

end TaskRow

namespace CpuRow

/-- What follows the last tab of the row. -/
def lastField (row : CpuRow) : List Char := row.percent.chars ++ ['\r']

def text (row : CpuRow) : List Char :=
  ['\t'].intercalate [row.name.chars, row.ticks.chars, [], row.lastField]

end CpuRow

/-- What is asked of the line that a row is joined to. -/
structure JoinedByName (row : TaskRow) (cpuStat : List CpuRow) (joined : List Char) : Prop where
  extends_iff : joined ≠ row.text.dropLast ↔ ∃ cpu ∈ cpuStat, cpu.name.chars = row.name.chars
  first : ∀ before cpu rest, cpuStat = before ++ cpu :: rest → cpu.name.chars = row.name.chars →
    (∀ other ∈ before, other.name.chars ≠ row.name.chars) →
    (pieces '\t' joined).length = 10 ∧
      splitLine joined = ⟨row.name.chars, row.state.chars, row.prio.chars, row.hwm.chars,
        row.number.chars, row.core.chars, cpu.ticks.chars, cpu.lastField⟩
  empty : (∀ cpu ∈ cpuStat, cpu.name.chars ≠ row.name.chars) → splitLine joined = {}

theorem TaskRow.tab_not_mem_fields (row : TaskRow) : ∀ field ∈ row.fields, '\t' ∉ field := by
  simp [fields, row.name.tab, row.state.tab, row.prio.tab, row.hwm.tab, row.number.tab, row.core.tab]

theorem CpuRow.tab_not_mem_lastField (cpu : CpuRow) : '\t' ∉ cpu.lastField := by
  simp [lastField, cpu.percent.tab]

/-- The name has the width that the percentage reaches with its carriage return at
most, and no carriage return in it. -/
theorem CpuRow.infix_text_iff (cpu : CpuRow) (name : NameCell) :
    name.chars <:+: cpu.name.chars ++ '\t' :: (cpu.ticks.chars ++ '\t' :: '\t' :: cpu.lastField) ↔
      cpu.name.chars = name.chars := by
  have width := name.width
  have ticksShort := cpu.ticksShort
  apply infix_stats_iff name.tab (cpu.name.width.trans width.symm) (by omega)
  intro within
  have short := cpu.percentShort
  have long := within.length_le
  have room : cpu.lastField.length = cpu.percent.chars.length + 1 := by simp [lastField]
  have same := within.eq_of_length (by omega)
  exact name.carriageReturn (same ▸ by simp [lastField])

namespace TaskRow

/-- The first row of the statistics with the name of this row. -/
def stats? (cpuStat : List CpuRow) (row : TaskRow) : Option CpuRow :=
  cpuStat.find? (·.name.chars = row.name.chars)

/-- The fields of a row of the task list once it is joined with a row of the
statistics, or is left as it was. -/
def joinedFields (row : TaskRow) : Option CpuRow → List (List Char)
  | none => row.fields
  | some cpu => row.fields ++ [[], cpu.ticks.chars, []] ++ [cpu.lastField]

theorem joinedFields_ne_nil (row : TaskRow) (stats : Option CpuRow) : row.joinedFields stats ≠ [] := by
  cases stats <;> simp [joinedFields, fields]

theorem pieces_joinedFields (row : TaskRow) (stats : Option CpuRow) :
    pieces '\t' (['\t'].intercalate (row.joinedFields stats)) = row.joinedFields stats := by
  have listed := row.tab_not_mem_fields
  cases stats with
  | none => exact pieces_intercalate listed (row.joinedFields_ne_nil none) row.core.present
  | some cpu =>
    apply pieces_intercalate _ (row.joinedFields_ne_nil (some cpu))
    · simp [joinedFields, CpuRow.lastField]
    · simp only [fields, List.forall_mem_cons] at listed
      simp [joinedFields, fields, listed, cpu.ticks.tab, cpu.tab_not_mem_lastField]

/-- The line shows whether the row was joined. -/
theorem joined_eq_iff (row : TaskRow) (stats : Option CpuRow) :
    ['\t'].intercalate (row.joinedFields stats) = row.text.dropLast ↔ stats = none := by
  have unjoined : row.text.dropLast = ['\t'].intercalate (row.joinedFields none) := by
    rw [text, List.dropLast_concat]
    rfl
  rw [unjoined]
  constructor
  · intro same
    have fields := congrArg (pieces '\t') same
    rw [pieces_joinedFields, pieces_joinedFields] at fields
    have lengths := congrArg List.length fields
    cases stats with
    | none => rfl
    | some cpu => cases lengths
  · intro none
    rw [none]

end TaskRow

theorem appendStats_text (row : TaskRow) (cpuStat : List CpuRow) :
    appendStats row.text (cpuStat.map CpuRow.text) =
      .ok (['\t'].intercalate (row.joinedFields (row.stats? cpuStat))) := by
  have front : ['\t'].intercalate row.fields =
      row.name.chars ++ '\t' :: ['\t'].intercalate row.fields.tail := by
    simp [TaskRow.fields, List.intercalate_cons_cons]
  have texts : CpuRow.text = fun cpu =>
      cpu.name.chars ++ '\t' :: (cpu.ticks.chars ++ '\t' :: '\t' :: cpu.lastField) := by
    funext cpu
    simp [CpuRow.text, List.intercalate_cons_cons]
  have search : cpuStat.find? (·.name.chars = row.name.chars) = row.stats? cpuStat := rfl
  rw [TaskRow.text, front, texts, appendStats_eq _ _ _ row.name.tab
    (fun cpu _ => cpu.name.width.trans row.name.width.symm) (fun cpu _ => cpu.infix_text_iff row.name),
    search]
  cases row.stats? cpuStat with
  | none => rw [TaskRow.joinedFields, front]
  | some cpu => simp [TaskRow.joinedFields, TaskRow.fields, List.intercalate_cons_cons]

/-- `append_stats` joins by name, and `splitLine` takes apart what it has joined. -/
theorem appendStats_joins_by_name (row : TaskRow) (cpuStat : List CpuRow) :
    ∃ joined, appendStats row.text (cpuStat.map CpuRow.text) = .ok joined ∧
      JoinedByName row cpuStat joined := by
  refine ⟨_, appendStats_text row cpuStat, ?_, ?_, ?_⟩
  · rw [ne_eq, row.joined_eq_iff]
    simp [TaskRow.stats?]
  · intro before cpu rest split named others
    have search : row.stats? cpuStat = some cpu := by
      apply List.find?_eq_some_iff_append.mpr
      exact ⟨decide_eq_true named, before, rest, split, by simpa using others⟩
    rw [search, splitLine, row.pieces_joinedFields]
    exact ⟨rfl, rfl⟩
  · intro others
    have search : row.stats? cpuStat = none := by
      apply List.find?_eq_none.mpr
      simpa using others
    rw [search, splitLine, row.pieces_joinedFields]
    rfl

end Motohs.Cli
