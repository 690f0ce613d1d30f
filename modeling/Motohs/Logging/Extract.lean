import Mathlib.Data.List.Basic
import Motohs.Logging.Parse

/-! What the extractions of `parse_message` make of any text at all, complete or not,
and that nothing but the text between the marker and the tail gets through them. -/

namespace Motohs.Logging

open Lib InputStream

/-- How a text is divided into tag and message, by how far its delimiters reach. -/
inductive Extracted : List Char → List Char → List Char → Prop where
  | noParen (absent : ')' ∉ sub) : Extracted sub [] []
  | noBlank (paren : ')' ∉ head) (absent : ' ' ∉ rest) : Extracted (head ++ ')' :: rest) [] []
  | noColon (paren : ')' ∉ head) (blank : ' ' ∉ gap) (absent : ':' ∉ tag) :
      Extracted (head ++ ')' :: (gap ++ ' ' :: tag)) (tag ++ ['\n']) []
  | noSpace (paren : ')' ∉ head) (blank : ' ' ∉ gap) (colon : ':' ∉ tag) (absent : ' ' ∉ rest) :
      Extracted (head ++ ')' :: (gap ++ ' ' :: (tag ++ ':' :: rest))) tag []
  | complete (paren : ')' ∉ head) (blank : ' ' ∉ gap) (colon : ':' ∉ tag) (space : ' ' ∉ skipped) :
      Extracted (head ++ ')' :: (gap ++ ' ' :: (tag ++ ':' :: (skipped ++ ' ' :: message))))
        tag (message.takeWhile (· != '\n'))

theorem Extracted.extract_eq (extracted : Extracted sub tag message) : extract sub = (tag, message) := by
  cases extracted with
  | noParen absent =>
    have missing : ')' ∉ sub ++ ['\n'] := by simpa using absent
    simp only [extract, ignore_missing missing, ignore_spent good_ended, getline_spent (good_failed _ _),
      ignore_spent (good_failed _ _)]
  | @noBlank head rest paren absent =>
    have missing : ' ' ∉ rest ++ ['\n'] := by simpa using absent
    simp only [extract, List.append_assoc, List.cons_append, ignore_through paren,
      ignore_missing missing, getline_spent good_ended, ignore_spent (good_failed _ _),
      getline_spent (good_failed _ _)]
  | @noColon head gap tag paren blank absent =>
    have missing : ':' ∉ tag ++ ['\n'] := by simpa using absent
    simp only [extract, List.append_assoc, List.cons_append, ignore_through paren,
      ignore_through blank, getline_last missing (by simp), ignore_spent good_ended,
      getline_spent (good_failed _ _)]
  | @noSpace head gap tag rest paren blank colon absent =>
    have missing : ' ' ∉ rest ++ ['\n'] := by simpa using absent
    simp only [extract, List.append_assoc, List.cons_append, ignore_through paren,
      ignore_through blank, getline_through colon, ignore_missing missing, getline_spent good_ended]
  | complete paren blank colon space =>
    simp only [extract, List.append_assoc, List.cons_append, ignore_through paren,
      ignore_through blank, getline_through colon, ignore_through space, getline_closed]

/-- Every text is divided in one of these ways. -/
theorem extracted (sub : List Char) : Extracted sub (extract sub).1 (extract sub).2 := by
  suffices divided : ∃ tag message, Extracted sub tag message by
    obtain ⟨tag, message, divided⟩ := divided
    rw [divided.extract_eq]
    exact divided
  by_cases paren : ')' ∈ sub
  · obtain ⟨head, rest, rfl, noParen⟩ := List.eq_append_cons_of_mem paren
    by_cases blank : ' ' ∈ rest
    · obtain ⟨gap, fields, rfl, noBlank⟩ := List.eq_append_cons_of_mem blank
      by_cases colon : ':' ∈ fields
      · obtain ⟨tag, after, rfl, noColon⟩ := List.eq_append_cons_of_mem colon
        by_cases space : ' ' ∈ after
        · obtain ⟨skipped, message, rfl, noSpace⟩ := List.eq_append_cons_of_mem space
          exact ⟨_, _, .complete noParen noBlank noColon noSpace⟩
        · exact ⟨_, _, .noSpace noParen noBlank noColon space⟩
      · exact ⟨_, _, .noColon noParen noBlank colon⟩
    · exact ⟨_, _, .noBlank noParen blank⟩
  · exact ⟨_, _, .noParen paren⟩

/-- Tag and message are made of the symbols of the text and the newline added to it. -/
theorem Extracted.mem_or_newline (extracted : Extracted sub tag message)
    (member : symbol ∈ tag ∨ symbol ∈ message) : symbol ∈ sub ∨ symbol = '\n' := by
  cases extracted with
  | noParen _ => simp at member
  | noBlank _ _ => simp at member
  | noColon _ _ _ =>
    simp only [List.mem_append, List.mem_cons, List.not_mem_nil, or_false] at member ⊢
    tauto
  | noSpace _ _ _ _ =>
    simp only [List.mem_append, List.mem_cons, List.not_mem_nil, or_false] at member ⊢
    tauto
  | complete _ _ _ _ =>
    left
    rcases member with inTag | inMessage
    · simp [inTag]
    · simp [(List.takeWhile_sublist _).subset inMessage]

/-- The tag ends at the first colon, whatever follows. -/
theorem extract_tag (paren : ')' ∉ head) (colon : ':' ∉ tag) (rest : List Char) :
    (extract (head ++ ')' :: (' ' :: (tag ++ ':' :: rest)))).1 = tag := by
  by_cases space : ' ' ∈ rest
  · obtain ⟨skipped, message, rfl, absent⟩ := List.eq_append_cons_of_mem space
    exact congrArg Prod.fst (Extracted.complete paren List.not_mem_nil colon absent).extract_eq
  · exact congrArg Prod.fst (Extracted.noSpace paren List.not_mem_nil colon space).extract_eq

/-- The characters of `msg` after the marker found at `start` and before its last five. -/
def between (msg : List Char) (start : Nat) : List Char :=
  (msg.take (msg.length - tailEscapeSeqLen)).drop (start + 3)

end Motohs.Logging
