import Mathlib.Data.List.Sort
import Motohs.Cli.Survival

/-! Which rows `tasks` prints, and in which order. The map is keyed by the task number
cut down to eight bits. -/

namespace Motohs.Cli

open Lib

namespace TasksRun

/-- The call returns and has printed one row for each task, by increasing number. -/
def ListsEachOnce (run : TasksRun) (tasks : List Task) : Prop :=
  run.result = .ok 0 ∧ ∃ order : List Task, order.Perm tasks ∧
    order.Pairwise (fun one other => one.number < other.number) ∧
    run.printed.map (fun row => (row.name, row.number)) =
      order.map fun task => (task.name.padded, decimal task.number.toNat)

end TasksRun

/-- Among the tasks, the numbers are in the order of their last eight bits. -/
def OrderedBelow256 (tasks : List Task) : Prop :=
  ∀ one ∈ tasks, ∀ other ∈ tasks, one.number < other.number →
    one.number.toNat % 256 < other.number.toNat % 256

theorem Task.key_lt_iff (one other : Task) :
    one.key < other.key ↔ one.number.toNat % 256 < other.number.toNat % 256 := by
  have value (task : Task) : task.key.val = task.number.toNat % 256 := by
    rw [Task.key, toUint8, Fin.val_ofNat, Int.ofNat_eq_natCast]
    omega
  rw [Fin.lt_def, value, value]

/-- The key under which a row is stored is that of the number printed in it. -/
def keyOfText (number : List Char) : Option (Fin 256) := (strtol number).map toUint8

theorem keyOfText_decimal (task : Task) :
    keyOfText (decimal task.number.toNat) = some task.key := by
  rw [keyOfText, strtol_decimal]
  rfl

/-- What a turn of the loop stores, whatever the row is: the fields of one line. -/
theorem readToken_ok (read : readToken cpuStat token = .ok (key, info)) :
    keyOfText info.number = some key ∧
      ∃ line, appendStats token cpuStat = .ok line ∧ info = splitLine line := by
  cases appended : appendStats token cpuStat with
  | error thrown =>
    rw [readToken, appended] at read
    cases read
  | ok line =>
    simp only [readToken, appended] at read
    change (do let number ← stoi (splitLine line).number; pure (toUint8 number, splitLine line)) = _ at read
    cases value : strtol (splitLine line).number with
    | none =>
      rw [stoi, value] at read
      cases read
    | some number =>
      simp only [stoi, value] at read
      split at read
      · cases read
        exact ⟨by rw [keyOfText, value]; rfl, line, rfl, rfl⟩
      · cases read

/-- The name in a row is a piece of its line. -/
theorem splitLine_name (line : List Char) :
    (splitLine line).name = [] ∨ (splitLine line).name ∈ InputStream.pieces '\t' line := by
  unfold splitLine
  split
  · rename_i split
    exact .inr (by simp [split])
  · exact .inl rfl

theorem appendStats_subset (appended : appendStats token cpuStat = .ok line)
    (member : symbol ∈ line) : symbol = '\t' ∨ symbol ∈ token ∨ ∃ row ∈ cpuStat, symbol ∈ row := by
  unfold appendStats at appended
  split at appended
  · cases appended
  · dsimp only at appended
    split at appended
    · cases appended
      exact .inr (.inl (List.mem_of_mem_dropLast member))
    · rename_i row found
      split at appended
      · cases appended
      · rename_i stats cut
        cases appended
        rcases List.mem_append.mp member with front | back
        · rcases List.mem_append.mp front with own | tabs
          · exact .inr (.inl (List.mem_of_mem_dropLast own))
          · exact .inl (by simpa using tabs)
        · exact .inr (.inr ⟨row, List.mem_of_find?_eq_some found, substr?_subset cut back⟩)

/-- Every entry of the map was read from a line of the task list. -/
theorem mem_entries (read : readTables listed measured = .ok infoStat)
    (member : entry ∈ infoStat.entries) :
    ∃ token ∈ splitString (cString '\x00' (vTaskList listed)),
      readToken (splitString (cString '\x00' (vTaskGetRunTimeStats measured))) token = .ok entry := by
  obtain ⟨results, each, rfl⟩ := readLoop_eq_ok_iff.mp read
  have among := (SortedMap.mem_insertAll member).resolve_left List.not_mem_nil
  exact mem_of_read each among

/-- No row printed has a name that could end a field or a row. -/
theorem printed_clean (read : readTables listed measured = .ok infoStat)
    (printed : info ∈ infoStat.values) : '\t' ∉ info.name ∧ '\n' ∉ info.name := by
  obtain ⟨⟨key, info⟩, stored, rfl⟩ := List.mem_map.mp printed
  obtain ⟨token, listed, turn⟩ := mem_entries read stored
  obtain ⟨_, line, appended, rfl⟩ := readToken_ok turn
  rcases splitLine_name line with empty | piece
  · simp [empty]
  · obtain ⟨tab, within⟩ := InputStream.mem_pieces piece
    refine ⟨tab, fun newline => ?_⟩
    rcases appendStats_subset appended (within newline) with same | own | ⟨row, among, inside⟩
    · exact absurd same (by decide)
    · exact (InputStream.mem_pieces listed).1 own
    · exact (InputStream.mem_pieces among).1 inside

theorem clean_of_printed {tasks : List Task} (read : readTables listed measured = .ok infoStat)
    (each : ∀ task ∈ tasks, ∃ info ∈ infoStat.values, info.name = task.name.padded) :
    ∀ task ∈ tasks, task.name.Clean := by
  intro task member
  obtain ⟨info, printed, name⟩ := each task member
  have clean := printed_clean read printed
  rw [name, task.name.mem_padded _ (by decide), task.name.mem_padded _ (by decide)] at clean
  exact ⟨clean.1, clean.2⟩

/-- The keys of the map are those of the numbers printed. -/
theorem keys_of_printed {order : List Task} (read : readTables listed measured = .ok infoStat)
    (printed : infoStat.values.map TaskInfo.number =
      order.map fun task => decimal task.number.toNat) :
    infoStat.entries.map Prod.fst = order.map Task.key := by
  apply List.map_injective_iff.mpr (Option.some_injective _)
  calc
    (infoStat.entries.map Prod.fst).map some = infoStat.values.map (keyOfText ·.number) := by
      rw [SortedMap.values, List.map_map, List.map_map]
      apply List.map_congr_left
      rintro ⟨key, info⟩ stored
      obtain ⟨token, _, turn⟩ := mem_entries read stored
      exact (readToken_ok turn).1.symm
    _ = (order.map fun task => decimal task.number.toNat).map keyOfText := by
      rw [← printed, List.map_map]
      rfl
    _ = (order.map Task.key).map some := by
      rw [List.map_map, List.map_map]
      exact List.map_congr_left fun task _ => keyOfText_decimal task

/-- Tasks with different keys all have their row in the map. -/
theorem entries_perm (rows : Task → TaskInfo) {tasks : List Task}
    (distinct : tasks.Pairwise fun one other => one.key ≠ other.key) :
    (SortedMap.empty.insertAll (tasks.map fun task => (task.key, rows task))).entries.Perm
      (tasks.map fun task => (task.key, rows task)) := by
  apply SortedMap.insertAll_perm
  change ((tasks.map _).map Prod.fst).Nodup
  rw [List.map_map]
  exact List.pairwise_map.mpr distinct

theorem keys_distinct {tasks : List Task} (ordered : OrderedBelow256 tasks)
    (distinct : tasks.Pairwise fun one other => one.number ≠ other.number) :
    tasks.Pairwise fun one other => one.key ≠ other.key := by
  refine distinct.imp_of_mem fun {one other} first second different => ?_
  rcases lt_or_gt_of_ne (UInt32.toNat_inj.not.mpr different) with less | greater
  · exact ne_of_lt ((one.key_lt_iff other).mpr (ordered one first other second less))
  · exact ne_of_gt ((other.key_lt_iff one).mpr (ordered other second one first greater))

/-- The tasks by increasing number. -/
def byNumber (tasks : List Task) : List Task :=
  tasks.mergeSort fun one other => decide (one.number ≤ other.number)

theorem byNumber_perm (tasks : List Task) : (byNumber tasks).Perm tasks := List.mergeSort_perm _ _

theorem byNumber_increasing {tasks : List Task}
    (distinct : tasks.Pairwise fun one other => one.number ≠ other.number) :
    (byNumber tasks).Pairwise fun one other => one.number < other.number := by
  have sorted : (byNumber tasks).Pairwise fun one other => decide (one.number ≤ other.number) = true := by
    apply List.pairwise_mergeSort
    · intro one other third
      simp only [decide_eq_true_eq]
      exact UInt32.le_trans
    · intro one other
      simpa using UInt32.le_total one.number other.number
  have different := (byNumber_perm tasks).symm.pairwise distinct (fun apart => Ne.symm apart)
  refine (sorted.and different).imp ?_
  rintro one other ⟨le, ne⟩
  exact UInt32.lt_of_le_of_ne (of_decide_eq_true le) ne

/-- Where the keys go with the numbers, the map has the rows of the tasks in order. -/
theorem entries_eq_byNumber (rows : Task → TaskInfo) {tasks : List Task}
    (ordered : OrderedBelow256 tasks)
    (distinct : tasks.Pairwise fun one other => one.number ≠ other.number) :
    (SortedMap.empty.insertAll (tasks.map fun task => (task.key, rows task))).entries =
      (byNumber tasks).map fun task => (task.key, rows task) := by
  have perm := (entries_perm rows (keys_distinct ordered distinct)).trans
    ((byNumber_perm tasks).symm.map fun task => (task.key, rows task))
  have sorted : ((byNumber tasks).map fun task => (task.key, rows task)).Pairwise
      fun one other => one.1 < other.1 := by
    rw [List.pairwise_map]
    refine (byNumber_increasing distinct).imp_of_mem fun {one other} first second less => ?_
    rw [one.key_lt_iff]
    exact ordered one ((byNumber_perm tasks).mem_iff.mp first) other
      ((byNumber_perm tasks).mem_iff.mp second) less
  refine perm.eq_of_pairwise ?_ (SortedMap.sorted _) sorted
  intro one other _ _ less greater
  exact absurd less (lt_asymm greater)

/-- In a list that increases in number and in key, a smaller number has a smaller key. -/
theorem key_lt_of_increasing {order : List Task}
    (increasing : order.Pairwise fun one other => one.number < other.number ∧ one.key < other.key) :
    ∀ one ∈ order, ∀ other ∈ order, one.number < other.number → one.key < other.key := by
  have forwards : order.Pairwise fun one other => one.number < other.number → one.key < other.key :=
    increasing.imp fun both _ => both.2
  have backwards : order.Pairwise fun one other => other.number < one.number → other.key < one.key :=
    increasing.imp fun both greater => absurd both.1 (UInt32.lt_asymm greater)
  intro one first other second
  exact List.Pairwise.forall_of_forall_of_flip (fun task _ less => absurd less (UInt32.lt_irrefl _))
    forwards backwards first second

theorem TasksRun.ListsEachOnce.clean {tasks : List Task}
    (lists : (tasksRun count listed measured).ListsEachOnce tasks) :
    ∀ task ∈ tasks, task.name.Clean := by
  obtain ⟨returns, order, perm, _, printed⟩ := lists
  obtain ⟨infoStat, read⟩ := readTables_of_returns returns
  rw [tasksRun_of_ok read] at printed
  refine clean_of_printed read fun task member => ?_
  have among : (task.name.padded, decimal task.number.toNat) ∈
      infoStat.values.map fun row => (row.name, row.number) := by
    rw [printed]
    exact List.mem_map_of_mem (perm.mem_iff.mpr member)
  obtain ⟨info, stored, both⟩ := List.mem_map.mp among
  exact ⟨info, stored, (Prod.mk.inj both).1⟩

/-- The rows come out by key, so numbers that come out in order have keys in order. -/
theorem TasksRun.ListsEachOnce.ordered {tasks : List Task}
    (lists : (tasksRun count listed measured).ListsEachOnce tasks) : OrderedBelow256 tasks := by
  obtain ⟨returns, order, perm, increasing, printed⟩ := lists
  obtain ⟨infoStat, read⟩ := readTables_of_returns returns
  rw [tasksRun_of_ok read] at printed
  have numbers := congrArg (List.map Prod.snd) printed
  rw [List.map_map, List.map_map] at numbers
  have keys := keys_of_printed read numbers
  have sorted : (order.map Task.key).Pairwise (· < ·) := keys ▸ List.pairwise_map.mpr infoStat.sorted
  intro one first other second less
  rw [← one.key_lt_iff]
  exact key_lt_of_increasing (increasing.and (List.pairwise_map.mp sorted)) one
    (perm.mem_iff.mpr first) other (perm.mem_iff.mpr second) less

/-- With both tables taken from the same tasks, the command lists each of them once and
in order just when no name has a tab or a line feed in it and the numbers are in the
order of their last eight bits. -/
theorem listsEachOnce_iff (count : UInt32) (listed measured : List Task)
    (same : measured.Perm listed)
    (distinct : listed.Pairwise fun one other => one.number ≠ other.number)
    (fits : ∀ task ∈ listed, task.number.toNat < 2 ^ 31) :
    (tasksRun count listed measured).ListsEachOnce listed ↔
      (∀ task ∈ listed, task.name.Clean) ∧ OrderedBelow256 listed := by
  constructor
  · intro lists
    exact ⟨lists.clean, lists.ordered⟩
  · rintro ⟨clean, ordered⟩
    have cleanMeasured : ∀ task ∈ measured, task.name.Clean :=
      fun task member => clean task (same.mem_iff.mp member)
    have read := readTables_ok clean cleanMeasured fits fun task member =>
      ⟨task, same.mem_iff.mpr member, rfl⟩
    rw [tasksRun_of_ok read]
    refine ⟨rfl, byNumber listed, byNumber_perm listed, byNumber_increasing distinct, ?_⟩
    have entries := entries_eq_byNumber (Task.row measured) ordered distinct
    change ((SortedMap.insertAll _ _).entries.map Prod.snd).map _ = _
    rw [entries, List.map_map, List.map_map]
    rfl

def shell : Task := ⟨⟨"shell".toList, by decide, by decide⟩, .running, 1, 2048, 1, 0, 120, 3⟩

def logger : Task := ⟨⟨"logger".toList, by decide, by decide⟩, .blocked, 5, 1024, 257, 1, 80, 2⟩

/-- The tasks numbered 1 and 257 share a key, so the second row is dropped. -/
theorem second_task_dropped :
    ¬ (tasksRun 2 [shell, logger] [shell, logger]).ListsEachOnce [shell, logger] := by
  rintro ⟨_, order, perm, _, printed⟩
  have one : (tasksRun 2 [shell, logger] [shell, logger]).printed.length = 1 := rfl
  have lengths := congrArg List.length printed
  rw [List.length_map, List.length_map, one, perm.length_eq] at lengths
  cases lengths

def audio : Task := ⟨⟨"audio".toList, by decide, by decide⟩, .ready, 7, 4096, 2, -1, 300, 7⟩

def bluetooth : Task := ⟨⟨"bt task".toList, by decide, by decide⟩, .suspended, 19, 3072, 300, 1, 500, 12⟩

/-- The rows come in another order in either table, and out by number. -/
theorem listsEachOnce_permuted :
    (tasksRun 3 [bluetooth, shell, audio] [audio, bluetooth, shell]).ListsEachOnce [bluetooth, shell, audio] := by
  have same : [audio, bluetooth, shell].Perm [bluetooth, shell, audio] :=
    (List.Perm.swap bluetooth audio [shell]).trans (.cons bluetooth (.swap shell audio []))
  have clean : ∀ task ∈ [bluetooth, shell, audio], task.name.Clean := by
    simp only [List.forall_mem_cons]
    exact ⟨⟨by decide, by decide⟩, ⟨by decide, by decide⟩, ⟨by decide, by decide⟩, nofun⟩
  have ordered : OrderedBelow256 [bluetooth, shell, audio] := by
    unfold OrderedBelow256
    decide
  exact (listsEachOnce_iff 3 _ _ same (by decide) (by decide)).mpr ⟨clean, ordered⟩

end Motohs.Cli
