import Mathlib.Data.List.Infix
import Mathlib.Data.List.TakeWhile

/-! Strings as lists of symbols: search for a substring, cut one out by position
and length, and tell where a pattern can occur in a text put together from parts. -/

namespace Lib

variable {Symbol : Type u} {pattern text : List Symbol}

/-- At most `count` symbols from `position` on, `none` when the text ends before that. -/
def substr? (text : List Symbol) (position count : Nat) : Option (List Symbol) :=
  if position ≤ text.length then some ((text.drop position).take count) else none

theorem substr?_append (front back : List Symbol) (count : Nat) :
    substr? (front ++ back) front.length count = some (back.take count) := by
  simp [substr?]

/-- What is behind a pattern in a text. -/
theorem drop_behind (front pattern back : List Symbol) :
    (front ++ (pattern ++ back)).drop (front.length + pattern.length) = back := by
  rw [← List.append_assoc, ← List.length_append]
  exact List.drop_left

theorem substr?_subset (cut : substr? text position count = some part) : part ⊆ text := by
  unfold substr? at cut
  split at cut
  · cases cut
    exact fun symbol member => List.mem_of_mem_drop (List.mem_of_mem_take member)
  · cases cut

/-- No pattern without the separator reaches across it. -/
theorem infix_across_iff (absent : separator ∉ pattern) {front back : List Symbol} :
    pattern <:+: front ++ separator :: back ↔ pattern <:+: front ∨ pattern <:+: back := by
  have notIn {piece : List Symbol} (piece_of : piece ⊆ pattern) (nonempty : piece ≠ []) :
      ¬ piece <+: separator :: back := by
    intro starts
    cases piece with
    | nil => exact nonempty rfl
    | cons first rest =>
      obtain ⟨rfl, _⟩ := List.cons_prefix_cons.mp starts
      exact absent (piece_of List.mem_cons_self)
  constructor
  · intro within
    rcases List.infix_append_iff_ne_nil.mp within with left | right | ⟨one, two, _, some, rfl, _, starts⟩
    · exact .inl left
    · rcases List.infix_cons_iff.mp right with starts | later
      · by_cases empty : pattern = []
        · simp [empty]
        · exact absurd starts (notIn (List.Subset.refl _) empty)
      · exact .inr later
    · exact absurd starts (notIn (List.subset_append_right _ _) some)
  · rintro (left | right)
    · exact List.infix_append_of_infix_left left
    · exact List.infix_append_of_infix_right (List.infix_cons right)

/-- A symbol in a text put together from fields stands in a field or between two. -/
theorem mem_intercalate (member : symbol ∈ [separator].intercalate fields) :
    symbol = separator ∨ ∃ field ∈ fields, symbol ∈ field := by
  induction fields with
  | nil => cases member
  | cons field fields ih =>
    by_cases last : fields = []
    · subst last
      rw [List.intercalate_singleton] at member
      exact .inr ⟨field, List.mem_cons_self, member⟩
    · rw [List.intercalate_cons_of_ne_nil last, List.append_assoc, List.mem_append,
        List.singleton_append, List.mem_cons] at member
      rcases member with here | between | later
      · exact .inr ⟨field, List.mem_cons_self, here⟩
      · exact .inl between
      · rcases ih later with between | ⟨other, among, inside⟩
        · exact .inl between
        · exact .inr ⟨other, List.mem_cons_of_mem _ among, inside⟩

/-- A pattern with a symbol that is missing from the text is not in it. -/
theorem not_infix_of_missing (missing : symbol ∉ text) (part : symbol ∈ pattern) :
    ¬ pattern <:+: text := fun within => missing (within.subset part)

variable [DecidableEq Symbol]

/-- Where the pattern first occurs in the text. -/
def find (pattern : List Symbol) : List Symbol → Option Nat
  | [] => if pattern = [] then some 0 else none
  | first :: rest =>
    if pattern <+: first :: rest then some 0 else (find pattern rest).map (· + 1)

/-- What a string read from a buffer is: everything in front of the terminator. -/
def cString (terminator : Symbol) (buffer : List Symbol) : List Symbol :=
  buffer.takeWhile (· != terminator)

theorem find_eq_none_iff : find pattern text = none ↔ ¬ pattern <:+: text := by
  induction text with
  | nil =>
    unfold find
    split <;> simp_all
  | cons first rest ih =>
    unfold find
    rw [List.infix_cons_iff]
    split
    · simp_all
    · simp_all

theorem find_isSome_iff : (find pattern text).isSome ↔ pattern <:+: text := by
  rw [Option.isSome_iff_ne_none, ne_eq, find_eq_none_iff, not_not]

theorem find_eq_some (found : find pattern text = some position) :
    ∃ front back, text = front ++ pattern ++ back ∧ front.length = position := by
  induction text generalizing position with
  | nil =>
    unfold find at found
    split at found
    · rename_i empty
      cases found
      exact ⟨[], [], by simp [empty], rfl⟩
    · cases found
  | cons first rest ih =>
    unfold find at found
    split at found
    · rename_i starts
      cases found
      obtain ⟨back, same⟩ := starts
      exact ⟨[], back, by simp [same], rfl⟩
    · obtain ⟨later, within, rfl⟩ := Option.map_eq_some_iff.mp found
      obtain ⟨front, back, same, length⟩ := ih within
      exact ⟨first :: front, back, by simp [same], by simp [length]⟩

theorem find_le_length (found : find pattern text = some position) : position ≤ text.length := by
  obtain ⟨front, back, rfl, rfl⟩ := find_eq_some found
  simp

/-- A pattern is found at the end of what has none of its first symbol. -/
theorem find_head (absent : first ∉ front) (rest back : List Symbol) :
    find (first :: rest) (front ++ (first :: rest ++ back)) = some front.length := by
  induction front with
  | nil => simp [find]
  | cons other front ih =>
    obtain ⟨different, absent⟩ := not_or.mp (List.mem_cons.not.mp absent)
    simp only [List.cons_append] at ih ⊢
    simp [find, ih absent, different]

theorem find_singleton (absent : symbol ∉ front) (back : List Symbol) :
    find [symbol] (front ++ symbol :: back) = some front.length :=
  find_head absent [] back

theorem forall_bne {delimiter : Symbol} (absent : delimiter ∉ text) :
    ∀ symbol ∈ text, symbol != delimiter := by
  intro symbol member
  rw [bne_iff_ne]
  rintro rfl
  exact absent member

theorem takeWhile_bne {delimiter : Symbol} (absent : delimiter ∉ text) :
    text.takeWhile (· != delimiter) = text :=
  List.takeWhile_eq_self_iff.mpr (forall_bne absent)

theorem cString_front (absent : terminator ∉ front) (back : List Symbol) :
    cString terminator (front ++ back) = front ++ cString terminator back :=
  List.takeWhile_append_of_pos (forall_bne absent)

theorem cString_append (absent : terminator ∉ text) (back : List Symbol) :
    cString terminator (text ++ terminator :: back) = text := by
  rw [cString_front absent]
  simp [cString]

/-- A text is divided at its first separator in one way only. -/
theorem split_unique {separator : Symbol} (left : separator ∉ front) (right : separator ∉ other)
    (same : front ++ separator :: back = other ++ separator :: rest) : front = other ∧ back = rest := by
  have fronts := congrArg (cString separator) same
  rw [cString_append left, cString_append right] at fronts
  subst fronts
  exact ⟨rfl, (List.cons.inj (List.append_cancel_left same)).2⟩

end Lib
