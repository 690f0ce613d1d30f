import Motohs.Lib.Regex
import Motohs.Lib.Decimal

/-! The version numbers of images: what `decode_version` takes for one. -/

namespace Motohs.Imgtool

open Lib

structure SemiSemVersion where
  major : Nat
  minor : Nat
  revision : Nat
  build : Nat
  deriving DecidableEq, Repr

/-- The decimal digits of all scripts, as `\d` and `int` know them. -/
structure Digits where
  value : Char → Option Nat
  ascii : ∀ char : Char, char.toNat < 128 →
    value char = if char.isDigit then some (char.toNat - '0'.toNat) else none

namespace Digits

variable (digits : Digits)

def isDigit (char : Char) : Bool := (digits.value char).isSome

/-- `int` on a text of digits. -/
def int (text : List Char) : Nat := text.foldl (fun number char => 10 * number + (digits.value char).getD 0) 0

theorem isDigit_ascii {char : Char} (small : char.toNat < 128) : digits.isDigit char = char.isDigit := by
  rw [isDigit, digits.ascii char small]
  cases char.isDigit <;> rfl

theorem toNat_of_isDigit {char : Char} (digit : char.isDigit = true) : char.toNat < 128 := by
  simp [Char.isDigit] at digit
  have upper : char.toNat ≤ 57 := digit.2
  omega

theorem isDigit_of_isDigit {char : Char} (digit : char.isDigit = true) : digits.isDigit char = true := by
  rw [digits.isDigit_ascii (toNat_of_isDigit digit), digit]

theorem int_ascii {text : List Char} (plain : ∀ char ∈ text, char.isDigit = true) :
    digits.int text = Nat.ofDigitChars 10 text 0 := by
  rw [int, Nat.ofDigitChars_eq_foldl]
  apply List.foldl_ext
  intro number char member
  have digit := plain char member
  rw [digits.ascii char (toNat_of_isDigit digit), if_pos digit]
  rfl

theorem int_decimal (number : Nat) : digits.int (decimal number) = number := by
  rw [digits.int_ascii fun _ member => isDigit_of_mem_decimal member, ofDigitChars_decimal]

end Digits

/-- The ten digits of ASCII only. -/
def asciiDigits : Digits where
  value char := if char.isDigit then some (char.toNat - '0'.toNat) else none
  ascii _ _ := rfl

/-- `[1-9]` -/
def nonzero (char : Char) : Bool := '1' ≤ char ∧ char ≤ '9'

/-- `([1-9]\d*|0)` -/
def numeralRe (digits : Digits) (index : Nat) : Regex Char :=
  .group index (.alt (.seq (.one nonzero) (.many digits.isDigit)) (.one (· = '0')))

/-- `(<separator> …)?`, a part that may be left out. -/
def laterRe (index : Nat) (separator : Char) (after : Regex Char) : Regex Char :=
  .opt (.group index (.seq (.one (· = separator)) after))

/-- `version_re`. It is matched at the start of the text, where `^` always holds. -/
def versionRe (digits : Digits) : Regex Char :=
  .seq (numeralRe digits 1) (.seq
    (laterRe 2 '.' (.seq (numeralRe digits 3)
      (laterRe 4 '.' (.seq (numeralRe digits 5)
        (laterRe 6 '+' (numeralRe digits 7))))))
    (.finish (· = '\n')))

def versionError : List Char :=
  "Invalid version number, should be maj.min.rev+build with later parts optional".toList

/-- The numbers of the groups, 0 for those that are not there. -/
def versionOf (digits : Digits) (m : Regex.Attempt Char) : SemiSemVersion :=
  let part (index : Nat) : Nat := (m.group? index).elim 0 digits.int
  ⟨part 1, part 3, part 5, part 7⟩

def decodeVersion (digits : Digits) (text : List Char) : Except (List Char) SemiSemVersion :=
  match (versionRe digits).match? text with
  | some m => .ok (versionOf digits m)
  | none => .error versionError

/-- The version as the tool prints it. -/
def SemiSemVersion.text (version : SemiSemVersion) : List Char :=
  decimal version.major ++ '.' :: decimal version.minor ++ '.' :: decimal version.revision ++
    '+' :: decimal version.build

/-- A number without leading zeros. -/
inductive Numeral (digits : Digits) : List Char → Prop where
  | zero : Numeral digits ['0']
  | positive (front : nonzero first = true) (others : ∀ char ∈ rest, digits.isDigit char = true) :
      Numeral digits (first :: rest)

def laterText : List Char → List (List Char) → List Char
  | separator :: separators, part :: later => separator :: (part ++ laterText separators later)
  | _, _ => []

def separators : List Char := ['.', '.', '+']

/-- The numerals of a version, as they are written: one to four. -/
structure Parts (digits : Digits) where
  major : List Char
  later : List (List Char)
  numerals : ∀ part ∈ major :: later, Numeral digits part
  few : later.length ≤ 3

namespace Parts

variable {digits : Digits}

def text (parts : Parts digits) : List Char := parts.major ++ laterText separators parts.later

def version (parts : Parts digits) : SemiSemVersion :=
  let part (index : Nat) : Nat := (parts.later[index]?).elim 0 digits.int
  ⟨digits.int parts.major, part 0, part 1, part 2⟩

end Parts

section Match

variable {digits : Digits}

open Regex

theorem matches_numeralRe_iff {text : List Char} {done : Attempt Char} :
    Matches (numeralRe digits index) ⟨text, groups⟩ done ↔
      ∃ part rest, text = part ++ rest ∧ Numeral digits part ∧ done = ⟨rest, (index, part) :: groups⟩ := by
  rw [numeralRe, matches_group_iff]
  constructor
  · rintro ⟨part, rest, _, same, taken, rfl⟩
    rcases matches_alt_iff.mp taken with taken | taken
    · obtain ⟨_, front, back⟩ := matches_seq_iff.mp taken
      obtain ⟨first, _, rfl, positive, rfl⟩ := matches_one_iff.mp front
      obtain ⟨others, _, rfl, accepted, done⟩ := matches_many_iff.mp back
      cases done
      change first :: others ++ rest = part ++ rest at same
      rw [← List.append_cancel_right same]
      exact ⟨_, rest, rfl, .positive positive accepted, rfl⟩
    · obtain ⟨zero, _, rfl, accepted, done⟩ := matches_one_iff.mp taken
      cases done
      cases of_decide_eq_true accepted
      change ['0'] ++ rest = part ++ rest at same
      rw [← List.append_cancel_right same]
      exact ⟨_, rest, rfl, .zero, rfl⟩
  · rintro ⟨part, rest, rfl, numeral, rfl⟩
    refine ⟨part, rest, groups, rfl, matches_alt_iff.mpr ?_, rfl⟩
    cases numeral with
    | zero => exact .inr (.one rfl)
    | positive front others => exact .inl (.seq (.one front) (.many others))

theorem matches_laterRe {after : Regex Char} {text : List Char} {done : Attempt Char}
    (matched : Matches (laterRe index separator after) ⟨text, groups⟩ done) :
    done = ⟨text, groups⟩ ∨ ∃ rest last more whole, text = separator :: rest ∧
      Matches after ⟨rest, groups⟩ ⟨last, more⟩ ∧ done = ⟨last, (index, whole) :: more⟩ := by
  rcases matches_opt_iff.mp matched with taken | absent
  · obtain ⟨whole, rest, more, _, inside, rfl⟩ := matches_group_iff.mp taken
    obtain ⟨_, front, back⟩ := matches_seq_iff.mp inside
    obtain ⟨_, after, rfl, accepted, rfl⟩ := matches_one_iff.mp front
    cases of_decide_eq_true accepted
    exact .inr ⟨after, rest, more, whole, rfl, back, rfl⟩
  · exact .inl absent

theorem laterRe_matches {after : Regex Char} {rest : List Char} {done : Attempt Char} (separator : Char)
    (taken : Matches after ⟨rest, groups⟩ done) : ∃ whole,
      Matches (laterRe index separator after) ⟨separator :: rest, groups⟩
        ⟨done.rest, (index, whole) :: done.groups⟩ := by
  have whole : Matches (.seq (.one (· = separator)) after) ⟨separator :: rest, groups⟩ done :=
    .seq (.one (decide_eq_true rfl)) taken
  exact ⟨_, matches_opt_iff.mpr (.inl (.group whole))⟩

/-- Every match of the expression is that of a version, at its end. -/
theorem parts_of_matches {text : List Char} {done : Attempt Char}
    (matched : Matches (versionRe digits) ⟨text, []⟩ done) : ∃ (parts : Parts digits) (ending : List Char),
      text = parts.text ++ ending ∧ ends (· = '\n') ending = true ∧ versionOf digits done = parts.version := by
  obtain ⟨_, majorMatched, others⟩ := matches_seq_iff.mp matched
  obtain ⟨major, _, rfl, majorIs, rfl⟩ := matches_numeralRe_iff.mp majorMatched
  obtain ⟨middle, later, finished⟩ := matches_seq_iff.mp others
  obtain ⟨ended, rfl⟩ := matches_finish_iff.mp finished
  rcases matches_laterRe later with rfl | ⟨_, _, _, _, rfl, inMinor, rfl⟩
  · exact ⟨⟨major, [], by simpa using majorIs, by simp⟩, _, by simp [Parts.text, laterText], ended, rfl⟩
  obtain ⟨_, minorMatched, afterMinor⟩ := matches_seq_iff.mp inMinor
  obtain ⟨minor, _, rfl, minorIs, rfl⟩ := matches_numeralRe_iff.mp minorMatched
  rcases matches_laterRe afterMinor with same | ⟨_, _, _, _, rfl, inRevision, same⟩ <;> cases same
  · exact ⟨⟨major, [minor], by simpa using ⟨majorIs, minorIs⟩, by simp⟩, _,
      by simp [Parts.text, laterText, separators], ended, rfl⟩
  obtain ⟨_, revisionMatched, afterRevision⟩ := matches_seq_iff.mp inRevision
  obtain ⟨revision, _, rfl, revisionIs, rfl⟩ := matches_numeralRe_iff.mp revisionMatched
  rcases matches_laterRe afterRevision with same | ⟨_, _, _, _, rfl, buildMatched, same⟩ <;> cases same
  · exact ⟨⟨major, [minor, revision], by simpa using ⟨majorIs, minorIs, revisionIs⟩, by simp⟩, _,
      by simp [Parts.text, laterText, separators], ended, rfl⟩
  obtain ⟨build, _, rfl, buildIs, same⟩ := matches_numeralRe_iff.mp buildMatched
  cases same
  exact ⟨⟨major, [minor, revision, build], by simpa using ⟨majorIs, minorIs, revisionIs, buildIs⟩, by simp⟩, _,
    by simp [Parts.text, laterText, separators], ended, rfl⟩

theorem numeralRe_matches (index : Nat) (part : Numeral digits text) (rest : List Char)
    (groups : List (Nat × List Char)) :
    Matches (numeralRe digits index) ⟨text ++ rest, groups⟩ ⟨rest, (index, text) :: groups⟩ :=
  matches_numeralRe_iff.mpr ⟨text, rest, rfl, part, rfl⟩

/-- Whatever is written as a version matches. -/
theorem matches_of_parts (parts : Parts digits) {ending : List Char} (ended : ends (· = '\n') ending = true) :
    ∃ done, Matches (versionRe digits) ⟨parts.text ++ ending, []⟩ done := by
  obtain ⟨major, later, numerals, few⟩ := parts
  obtain ⟨majorIs, laterAre⟩ := List.forall_mem_cons.mp numerals
  have finish (groups : List (Nat × List Char)) : Matches (.finish (· = '\n')) ⟨ending, groups⟩ ⟨ending, groups⟩ :=
    .finish ended
  match later with
  | [] =>
    simp only [Parts.text, separators, laterText, List.append_nil]
    exact ⟨_, .seq (numeralRe_matches 1 majorIs ending []) (.seq .absent (finish _))⟩
  | [minor] =>
    obtain ⟨minorIs, _⟩ := List.forall_mem_cons.mp laterAre
    simp only [Parts.text, laterText, separators, List.append_nil, List.append_assoc, List.cons_append]
    obtain ⟨_, first⟩ := laterRe_matches '.' (.seq (numeralRe_matches 3 minorIs ending [(1, major)]) .absent)
    exact ⟨_, .seq (numeralRe_matches 1 majorIs _ []) (.seq first (finish _))⟩
  | [minor, revision] =>
    obtain ⟨minorIs, later⟩ := List.forall_mem_cons.mp laterAre
    obtain ⟨revisionIs, _⟩ := List.forall_mem_cons.mp later
    simp only [Parts.text, laterText, separators, List.append_nil, List.append_assoc, List.cons_append]
    obtain ⟨_, second⟩ := laterRe_matches '.'
      (.seq (numeralRe_matches 5 revisionIs ending [(3, minor), (1, major)]) .absent)
    obtain ⟨_, first⟩ := laterRe_matches '.' (.seq (numeralRe_matches 3 minorIs _ [(1, major)]) second)
    exact ⟨_, .seq (numeralRe_matches 1 majorIs _ []) (.seq first (finish _))⟩
  | [minor, revision, build] =>
    obtain ⟨minorIs, later⟩ := List.forall_mem_cons.mp laterAre
    obtain ⟨revisionIs, later⟩ := List.forall_mem_cons.mp later
    obtain ⟨buildIs, _⟩ := List.forall_mem_cons.mp later
    simp only [Parts.text, laterText, separators, List.append_nil, List.append_assoc, List.cons_append]
    obtain ⟨_, third⟩ := laterRe_matches '+'
      (numeralRe_matches 7 buildIs ending [(5, revision), (3, minor), (1, major)])
    obtain ⟨_, second⟩ := laterRe_matches '.'
      (.seq (numeralRe_matches 5 revisionIs _ [(3, minor), (1, major)]) third)
    obtain ⟨_, first⟩ := laterRe_matches '.' (.seq (numeralRe_matches 3 minorIs _ [(1, major)]) second)
    exact ⟨_, .seq (numeralRe_matches 1 majorIs _ []) (.seq first (finish _))⟩

end Match

section Unique

variable {digits : Digits}

theorem isDigit_of_nonzero {char : Char} (positive : nonzero char = true) : char.isDigit = true := by
  obtain ⟨lower, upper⟩ := of_decide_eq_true positive
  have zero : '0' ≤ '1' := by decide
  simpa [Char.isDigit] using ⟨Char.le_trans zero lower, upper⟩

theorem Numeral.digit (part : Numeral digits text) : ∀ char ∈ text, digits.isDigit char = true := by
  cases part with
  | zero => simpa using digits.isDigit_of_isDigit (by decide)
  | positive front others =>
    exact List.forall_mem_cons.mpr ⟨digits.isDigit_of_isDigit (isDigit_of_nonzero front), others⟩

/-- A text that does not go on with a digit. -/
def Halts (digits : Digits) (text : List Char) : Prop := ∀ char ∈ text.head?, digits.isDigit char = false

theorem eq_of_mem_separators (member : separator ∈ separators) : separator = '.' ∨ separator = '+' := by
  simpa [separators] using member

theorem halts_separators : ∀ separator ∈ separators, digits.isDigit separator = false := by
  intro separator member
  rcases eq_of_mem_separators member with rfl | rfl <;> rw [digits.isDigit_ascii (by decide)] <;> decide

theorem halts_ending {ending : List Char} (ended : Regex.ends (· = '\n') ending = true) : Halts digits ending := by
  match ending with
  | [] => simp [Halts]
  | [last] =>
    cases of_decide_eq_true ended
    simp [Halts, digits.isDigit_ascii (show '\n'.toNat < 128 by decide)]
  | _ :: _ :: _ => cases ended

theorem span_unique {accepts : Char → Bool} {front other rest back : List Char}
    (left : ∀ char ∈ front, accepts char = true) (right : ∀ char ∈ other, accepts char = true)
    (restHalts : ∀ char ∈ rest.head?, accepts char = false)
    (backHalts : ∀ char ∈ back.head?, accepts char = false)
    (same : front ++ rest = other ++ back) : front = other ∧ rest = back := by
  have stop {text : List Char} (halts : ∀ char ∈ text.head?, accepts char = false) :
      text.takeWhile accepts = [] := by
    cases text with
    | nil => rfl
    | cons first _ => simp [halts first rfl]
  have fronts := congrArg (List.takeWhile accepts) same
  rw [List.takeWhile_append_of_pos left, List.takeWhile_append_of_pos right, stop restHalts, stop backHalts,
    List.append_nil, List.append_nil] at fronts
  subst fronts
  exact ⟨rfl, List.append_cancel_left same⟩

theorem halts_laterText {marks ending : List Char} (ended : Regex.ends (· = '\n') ending = true)
    (mark : ∀ separator ∈ marks, digits.isDigit separator = false) (later : List (List Char)) :
    Halts digits (laterText marks later ++ ending) := by
  match marks, later with
  | [], _ | _ :: _, [] => exact halts_ending ended
  | separator :: _, _ :: _ => simpa [laterText, Halts] using mark separator List.mem_cons_self

/-- In front of an ending no separator stands. -/
theorem ending_ne_separator {ending rest : List Char} (ended : Regex.ends (· = '\n') ending = true)
    (mark : separator ≠ '\n') : ending ≠ separator :: rest := by
  rintro rfl
  cases rest with
  | nil => exact mark (of_decide_eq_true ended)
  | cons _ _ => cases ended

/-- The parts can be told from the text. -/
theorem laterText_unique {marks : List Char} (mark : ∀ separator ∈ marks, digits.isDigit separator = false)
    (lines : ∀ separator ∈ marks, separator ≠ '\n') {later other : List (List Char)}
    {ending final : List Char} (few : later.length ≤ marks.length) (otherFew : other.length ≤ marks.length)
    (numerals : ∀ part ∈ later, Numeral digits part) (otherNumerals : ∀ part ∈ other, Numeral digits part)
    (ended : Regex.ends (· = '\n') ending = true) (finished : Regex.ends (· = '\n') final = true)
    (same : laterText marks later ++ ending = laterText marks other ++ final) : later = other := by
  induction marks generalizing later other with
  | nil =>
    rw [List.length_eq_zero_iff.mp (Nat.le_zero.mp few), List.length_eq_zero_iff.mp (Nat.le_zero.mp otherFew)]
  | cons separator marks ih =>
    obtain ⟨_, marksAre⟩ := List.forall_mem_cons.mp mark
    obtain ⟨notLine, linesAre⟩ := List.forall_mem_cons.mp lines
    match later, other with
    | [], [] => rfl
    | [], _ :: _ => exact absurd same (ending_ne_separator ended notLine)
    | _ :: _, [] => exact absurd same.symm (ending_ne_separator finished notLine)
    | part :: later, otherPart :: other =>
      obtain ⟨partIs, laterAre⟩ := List.forall_mem_cons.mp numerals
      obtain ⟨otherIs, othersAre⟩ := List.forall_mem_cons.mp otherNumerals
      simp only [laterText, List.cons_append, List.append_assoc, List.cons.injEq, true_and] at same
      obtain ⟨rfl, rest⟩ := span_unique partIs.digit otherIs.digit (halts_laterText ended marksAre later)
        (halts_laterText finished marksAre other) same
      rw [ih marksAre linesAre (Nat.le_of_succ_le_succ few) (Nat.le_of_succ_le_succ otherFew) laterAre othersAre
        rest]

theorem parts_unique {parts other : Parts digits} {ending final : List Char}
    (ended : Regex.ends (· = '\n') ending = true) (finished : Regex.ends (· = '\n') final = true)
    (same : parts.text ++ ending = other.text ++ final) : parts = other := by
  obtain ⟨major, later, numerals, few⟩ := parts
  obtain ⟨otherMajor, otherLater, otherNumerals, otherFew⟩ := other
  obtain ⟨majorIs, laterAre⟩ := List.forall_mem_cons.mp numerals
  obtain ⟨otherIs, othersAre⟩ := List.forall_mem_cons.mp otherNumerals
  simp only [Parts.text, List.append_assoc] at same
  obtain ⟨rfl, rest⟩ := span_unique majorIs.digit otherIs.digit (halts_laterText ended halts_separators later)
    (halts_laterText finished halts_separators otherLater) same
  have lines : ∀ separator ∈ separators, separator ≠ '\n' := by
    intro separator member
    rcases eq_of_mem_separators member with rfl | rfl <;> decide
  have laterSame := laterText_unique halts_separators lines few otherFew laterAre othersAre ended finished rest
  subst laterSame
  rfl

end Unique

theorem nonzero_decimal {number : Nat} (positive : 0 < number) :
    ∃ first rest, decimal number = first :: rest ∧ nonzero first = true := by
  have digit : ∀ number < 10, 0 < number → nonzero number.digitChar = true := by decide
  induction number using Nat.strong_induction_on with
  | _ number ih =>
    by_cases single : number < 10
    · exact ⟨_, [], Nat.toDigits_of_lt_base single, digit number single positive⟩
    · obtain ⟨first, rest, shorter, front⟩ := ih (number / 10) (by omega) (by omega)
      rw [decimal] at shorter ⊢
      rw [Nat.toDigits_of_base_le (by decide) (Nat.le_of_not_lt single), shorter]
      exact ⟨first, _, rfl, front⟩

theorem numeral_decimal (digits : Digits) (number : Nat) : Numeral digits (decimal number) := by
  rcases Nat.eq_zero_or_pos number with rfl | positive
  · exact .zero
  · obtain ⟨first, rest, text, front⟩ := nonzero_decimal positive
    rw [text]
    refine .positive front fun char member => digits.isDigit_of_isDigit ?_
    exact isDigit_of_mem_decimal (text ▸ List.mem_cons_of_mem _ member : char ∈ decimal number)

/-- A version is read as its numbers. -/
theorem decodeVersion_parts (parts : Parts digits) {ending : List Char}
    (ended : Regex.ends (· = '\n') ending = true) :
    decodeVersion digits (parts.text ++ ending) = .ok parts.version := by
  obtain ⟨done, matched⟩ := matches_of_parts parts ended
  unfold decodeVersion
  cases found : (versionRe digits).match? (parts.text ++ ending) with
  | none => cases Regex.run_eq_none_iff.mp found done matched
  | some m =>
    obtain ⟨_, taken, same⟩ := Regex.of_run found
    cases same
    obtain ⟨other, final, again, finished, value⟩ := parts_of_matches taken
    rw [parts_unique ended finished again]
    exact congrArg Except.ok value

theorem ends_newline_iff {ending : List Char} :
    Regex.ends (· = '\n') ending = true ↔ ending = [] ∨ ending = ['\n'] := by
  match ending with
  | [] => simp [Regex.ends]
  | [last] => simp [Regex.ends]
  | _ :: _ :: _ => simp [Regex.ends]

/-- What is taken for a version: one to four numbers without leading zeros, and perhaps a
newline at the end. -/
theorem decodeVersion_eq_ok_iff {digits : Digits} {text : List Char} :
    decodeVersion digits text = .ok version ↔ ∃ (parts : Parts digits) (ending : List Char),
      text = parts.text ++ ending ∧ (ending = [] ∨ ending = ['\n']) ∧ version = parts.version := by
  simp only [← ends_newline_iff]
  constructor
  · intro decoded
    unfold decodeVersion at decoded
    split at decoded
    · rename_i m found
      obtain ⟨_, matched, same⟩ := Regex.of_run found
      cases same
      cases decoded
      exact parts_of_matches matched
    · cases decoded
  · rintro ⟨parts, ending, rfl, ended, rfl⟩
    exact decodeVersion_parts parts ended

/-- What the tool prints for a version is read back as that version. -/
theorem decodeVersion_text (digits : Digits) (version : SemiSemVersion) :
    decodeVersion digits version.text = .ok version := by
  have numerals : ∀ part ∈ [decimal version.major, decimal version.minor, decimal version.revision,
      decimal version.build], Numeral digits part := by simp [numeral_decimal]
  have decoded := @decodeVersion_parts digits ⟨_, _, numerals, by simp⟩ [] rfl
  simpa [Parts.text, laterText, separators, SemiSemVersion.text, Parts.version, digits.int_decimal] using decoded

end Motohs.Imgtool
