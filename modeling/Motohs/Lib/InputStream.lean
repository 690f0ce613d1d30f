import Motohs.Lib.Text

/-! A text read as a stream with its end-of-file and failure bits, and the loop
that reads a text piece by piece. A read from a stream that is no longer good
takes nothing and leaves its target as it was. -/

namespace Lib

structure InputStream (Symbol : Type u) where
  unread : List Symbol
  eof : Bool
  fail : Bool

namespace InputStream

section

variable {Symbol : Type u}

def ofText (text : List Symbol) : InputStream Symbol := ⟨text, false, false⟩

/-- All read, and the end met on the way. -/
def ended : InputStream Symbol := ⟨[], true, false⟩

def good (stream : InputStream Symbol) : Bool := !stream.eof && !stream.fail

theorem good_ended : (ended : InputStream Symbol).good = false := rfl

theorem good_failed (unread : List Symbol) (eof : Bool) :
    (InputStream.mk unread eof true).good = false := by
  simp [good]

end

variable {Symbol : Type u} [DecidableEq Symbol] {delimiter : Symbol} {line text rest : List Symbol}

/-- Read up to the delimiter and drop it; fails when there is nothing left at all.
`target` is what the string read into holds before. -/
def getline (delimiter : Symbol) (target : List Symbol) (stream : InputStream Symbol) :
    List Symbol × InputStream Symbol :=
  if stream.good then
    let line := stream.unread.takeWhile (· != delimiter)
    match stream.unread.dropWhile (· != delimiter) with
    | _ :: unread => (line, { stream with unread })
    | [] => (line, ⟨[], true, line.isEmpty⟩)
  else (target, { stream with fail := true })

/-- Drop everything through the delimiter, without a limit on how much. -/
def ignore (delimiter : Symbol) (stream : InputStream Symbol) : InputStream Symbol :=
  if stream.good then
    match stream.unread.dropWhile (· != delimiter) with
    | _ :: unread => { stream with unread }
    | [] => ended
  else { stream with fail := true }

/-- The loop `while (getline(stream, token, delimiter)) tokens.push_back(token)`. -/
def readAll (delimiter : Symbol) : Nat → List Symbol → InputStream Symbol → List (List Symbol)
  | 0, _, _ => []
  | fuel + 1, token, stream =>
    let (token, stream) := stream.getline delimiter token
    if stream.fail then [] else token :: readAll delimiter fuel token stream

/-- The pieces of a text. Every turn but the last takes a symbol, so the turns suffice. -/
def pieces (delimiter : Symbol) (text : List Symbol) : List (List Symbol) :=
  readAll delimiter (text.length + 1) [] (ofText text)

theorem getline_spent {stream : InputStream Symbol} (spent : stream.good = false)
    (target : List Symbol) :
    stream.getline delimiter target = (target, { stream with fail := true }) := by
  simp [getline, spent]

theorem ignore_spent {stream : InputStream Symbol} (spent : stream.good = false) :
    stream.ignore delimiter = { stream with fail := true } := by
  simp [ignore, spent]

theorem getline_through (absent : delimiter ∉ line) (target rest : List Symbol) :
    (ofText (line ++ delimiter :: rest)).getline delimiter target = (line, ofText rest) := by
  simp [getline, ofText, good, List.takeWhile_append_of_pos (forall_bne absent),
    List.dropWhile_append_of_pos (forall_bne absent)]

theorem getline_last (absent : delimiter ∉ line) (present : line ≠ []) (target : List Symbol) :
    (ofText line).getline delimiter target = (line, ended) := by
  have takes := takeWhile_bne absent
  have drops : line.dropWhile (· != delimiter) = [] :=
    List.dropWhile_eq_nil_iff.mpr (forall_bne absent)
  simp [getline, ofText, good, takes, drops, ended, present]

/-- Reading up to a delimiter that stands at the end takes the first piece. -/
theorem getline_closed (text target : List Symbol) :
    ((ofText (text ++ [delimiter])).getline delimiter target).1 = text.takeWhile (· != delimiter) := by
  by_cases inside : delimiter ∈ text
  · obtain ⟨line, rest, rfl, absent⟩ := List.eq_append_cons_of_mem inside
    rw [List.append_assoc, List.cons_append, getline_through absent,
      List.takeWhile_append_of_pos (forall_bne absent)]
    simp
  · rw [getline_through inside, takeWhile_bne inside]

theorem ignore_through (absent : delimiter ∉ line) (rest : List Symbol) :
    (ofText (line ++ delimiter :: rest)).ignore delimiter = ofText rest := by
  simp [ignore, ofText, good, List.dropWhile_append_of_pos (forall_bne absent)]

theorem ignore_missing (absent : delimiter ∉ line) : (ofText line).ignore delimiter = ended := by
  have drops : line.dropWhile (· != delimiter) = [] :=
    List.dropWhile_eq_nil_iff.mpr (forall_bne absent)
  simp [ignore, ofText, good, drops]

theorem readAll_nil (fuel : Nat) (token : List Symbol) : readAll delimiter fuel token (ofText []) = [] := by
  cases fuel <;> simp [readAll, getline, ofText, good]

theorem readAll_ended (fuel : Nat) (token : List Symbol) : readAll delimiter fuel token ended = [] := by
  cases fuel <;> simp [readAll, getline, ended, good]

theorem readAll_through (absent : delimiter ∉ line) (fuel : Nat) (token : List Symbol) :
    readAll delimiter (fuel + 1) token (ofText (line ++ delimiter :: rest)) =
      line :: readAll delimiter fuel line (ofText rest) := by
  simp only [readAll, getline_through absent]
  rfl

theorem readAll_last (absent : delimiter ∉ line) (present : line ≠ []) (fuel : Nat) (token : List Symbol) :
    readAll delimiter (fuel + 1) token (ofText line) = [line] := by
  simp [readAll, getline_last absent present, readAll_ended]
  rfl

/-- More turns than symbols are as good as any other number of them. -/
theorem readAll_enough (enough : text.length < fuel) (token : List Symbol) :
    readAll delimiter fuel token (ofText text) = pieces delimiter text := by
  suffices same : ∀ (size : Nat) (text : List Symbol), text.length ≤ size → ∀ fuel more token other,
      text.length < fuel → text.length < more →
      readAll delimiter fuel token (ofText text) = readAll delimiter more other (ofText text) from
    same _ text le_rfl fuel _ token [] enough (Nat.lt_succ_self _)
  intro size
  induction size with
  | zero =>
    intro text short fuel more token other _ _
    obtain rfl := List.length_eq_zero_iff.mp (Nat.le_zero.mp short)
    rw [readAll_nil, readAll_nil]
  | succ size ih =>
    intro text short fuel more token other enough plenty
    obtain ⟨fuel, rfl⟩ := Nat.exists_eq_succ_of_ne_zero (Nat.ne_zero_of_lt enough)
    obtain ⟨more, rfl⟩ := Nat.exists_eq_succ_of_ne_zero (Nat.ne_zero_of_lt plenty)
    by_cases more_to_come : delimiter ∈ text
    · obtain ⟨line, rest, rfl, absent⟩ := List.eq_append_cons_of_mem more_to_come
      simp only [List.length_append, List.length_cons] at short enough plenty
      rw [Nat.succ_eq_add_one, Nat.succ_eq_add_one, readAll_through absent, readAll_through absent]
      exact congrArg _ (ih rest (by omega) fuel more line line (by omega) (by omega))
    · by_cases empty : text = []
      · rw [empty, readAll_nil, readAll_nil]
      · rw [Nat.succ_eq_add_one, Nat.succ_eq_add_one, readAll_last more_to_come empty,
          readAll_last more_to_come empty]

@[simp] theorem pieces_nil : pieces delimiter [] = [] := readAll_nil _ _

theorem pieces_through (absent : delimiter ∉ line) (rest : List Symbol) :
    pieces delimiter (line ++ delimiter :: rest) = line :: pieces delimiter rest := by
  rw [pieces, readAll_through absent, readAll_enough]
  rw [List.length_append, List.length_cons]
  omega

theorem pieces_last (absent : delimiter ∉ line) (present : line ≠ []) :
    pieces delimiter line = [line] := readAll_last absent present _ _

/-- A piece is made of the text's symbols without the delimiter. -/
theorem mem_pieces (member : piece ∈ pieces delimiter text) : delimiter ∉ piece ∧ piece ⊆ text := by
  induction size : text.length using Nat.strong_induction_on generalizing text with
  | _ size ih =>
    by_cases more_to_come : delimiter ∈ text
    · obtain ⟨line, rest, rfl, absent⟩ := List.eq_append_cons_of_mem more_to_come
      rw [pieces_through absent] at member
      rcases List.mem_cons.mp member with rfl | later
      · exact ⟨absent, List.subset_append_left _ _⟩
      · obtain ⟨without, within⟩ := ih rest.length (by simp at size; omega) later rfl
        refine ⟨without, fun symbol found => ?_⟩
        exact List.mem_append_right _ (List.mem_cons_of_mem _ (within found))
    · by_cases empty : text = []
      · simp [empty] at member
      · rw [pieces_last more_to_come empty, List.mem_singleton] at member
        subst member
        exact ⟨more_to_come, List.Subset.refl _⟩

/-- Reading lines back from a text in which each line is closed by the delimiter. -/
theorem pieces_terminated {lines : List (List Symbol)} (absent : ∀ line ∈ lines, delimiter ∉ line) :
    pieces delimiter (lines.flatMap (· ++ [delimiter])) = lines := by
  induction lines with
  | nil => exact pieces_nil
  | cons line lines ih =>
    obtain ⟨here, later⟩ := List.forall_mem_cons.mp absent
    rw [List.flatMap_cons, List.append_assoc, List.singleton_append, pieces_through here, ih later]

/-- Reading fields back from a text in which the delimiter stands between them. -/
theorem pieces_intercalate {fields : List (List Symbol)} (absent : ∀ field ∈ fields, delimiter ∉ field)
    (nonempty : fields ≠ []) (present : fields.getLast nonempty ≠ []) :
    pieces delimiter ([delimiter].intercalate fields) = fields := by
  induction fields with
  | nil => exact absurd rfl nonempty
  | cons field fields ih =>
    obtain ⟨here, later⟩ := List.forall_mem_cons.mp absent
    by_cases last : fields = []
    · subst last
      rw [List.intercalate_singleton]
      exact pieces_last here present
    · rw [List.getLast_cons last] at present
      rw [List.intercalate_cons_of_ne_nil last, List.append_assoc, List.singleton_append,
        pieces_through here, ih later last present]

end InputStream

end Lib
