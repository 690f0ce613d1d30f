import Motohs.Lib.Decimal
import Motohs.Logging.Parse

/-! Whether a record of ESP-IDF keeps its level on its way through the hook. -/

namespace Motohs.Logging

open Lib

def Level.letter : Level → Char
  | .debug => 'D'
  | .info => 'I'
  | .warn => 'W'
  | .err => 'E'

/-- What one call of an `ESP_LOGx` macro formats. -/
structure EspRecord where
  level : Level
  /-- The digit that picks the colour; records of level `debug` have no colour. -/
  colour : Fin 10
  timestamp : Nat
  tag : List Char
  message : List Char

namespace EspRecord

def colourPrefix (record : EspRecord) : List Char :=
  match record.level with
  | .debug => []
  | .info | .warn | .err => "\x1b[0;3".toList ++ [Nat.digitChar record.colour, 'm']

def header (record : EspRecord) : List Char :=
  record.level.letter :: ' ' :: '(' :: decimal record.timestamp

def text (record : EspRecord) : List Char :=
  record.colourPrefix ++ record.header ++ ')' :: ' ' :: record.tag ++
    ':' :: ' ' :: record.message ++ "\x1b[0m\n".toList

/-- The texts are C strings. -/
structure Terminated (record : EspRecord) : Prop where
  tag : '\x00' ∉ record.tag
  message : '\x00' ∉ record.message

/-- The record is logged, once, at its own level. -/
def KeepsLevel (record : EspRecord) : Prop :=
  ∃ call, vprintfOverride record.text = .ok (some call, record.text.length) ∧
    call.lvl = record.level

end EspRecord

open EspRecord

theorem marker_eq (level : Level) : marker level = [level.letter, ' ', '('] := by
  cases level <;> rfl

/-- The colour has nothing of a marker in it. -/
theorem not_infix_colourPrefix (record : EspRecord) (other : Level) (rest : List Char) :
    marker other <:+: record.colourPrefix ++ rest ↔ marker other <:+: rest := by
  have letters : 'm' ∉ marker other := by cases other <;> decide
  have bracket : '(' ∈ marker other := by cases other <;> decide
  have clean : ∀ digit : Fin 10, '(' ∉ "\x1b[0;3".toList ++ [Nat.digitChar digit] := by decide
  have coloured : marker other <:+:
      ("\x1b[0;3".toList ++ [Nat.digitChar record.colour]) ++ 'm' :: rest ↔ marker other <:+: rest := by
    rw [infix_across_iff letters]
    exact or_iff_right (not_infix_of_missing (clean record.colour) bracket)
  unfold colourPrefix
  cases record.level with
  | debug => rfl
  | info | warn | err => simpa using coloured

/-- The header has no marker but the record's own. -/
theorem infix_header_iff (record : EspRecord) (other : Level) :
    marker other <:+: record.header ↔ other = record.level := by
  constructor
  · intro within
    rw [header, marker_eq] at within
    rcases List.infix_cons_iff.mp within with starts | within
    · have same := (List.cons_prefix_cons.mp starts).1
      revert same
      cases other <;> cases record.level <;> decide
    · exfalso
      have letter : other.letter ≠ ' ' ∧ other.letter ≠ '(' := by cases other <;> decide
      rcases List.infix_cons_iff.mp within with starts | within
      · exact letter.1 (List.cons_prefix_cons.mp starts).1
      rcases List.infix_cons_iff.mp within with starts | within
      · exact letter.2 (List.cons_prefix_cons.mp starts).1
      · exact not_infix_of_missing (not_mem_decimal '(' rfl _) (by simp) within
  · rintro rfl
    rw [marker_eq]
    exact List.infix_append [] [record.level.letter, ' ', '('] (decimal record.timestamp)

theorem infix_after_blank_iff (other : Level) (text : List Char) :
    marker other <:+: ' ' :: text ↔ marker other <:+: text := by
  rw [List.infix_cons_iff, marker_eq]
  apply or_iff_right
  intro starts
  have same := (List.cons_prefix_cons.mp starts).1
  revert same
  cases other <;> decide

/-- Where a marker can occur in a record: no part of it reaches from one field
into the next. -/
theorem infix_text_iff (record : EspRecord) (other : Level) :
    marker other <:+: record.text ↔
      other = record.level ∨ marker other <:+: record.tag ∨ marker other <:+: record.message := by
  have parts : record.text = record.colourPrefix ++ (record.header ++ ')' :: (' ' :: record.tag ++
      ':' :: (' ' :: record.message ++ '\x1b' :: "[0m\n".toList))) := by
    simp [text]
  have paren : ')' ∉ marker other := by cases other <;> decide
  have colon : ':' ∉ marker other := by cases other <;> decide
  have escape : '\x1b' ∉ marker other := by cases other <;> decide
  have tail : ¬ marker other <:+: "[0m\n".toList := by cases other <;> decide
  rw [parts, not_infix_colourPrefix, infix_across_iff paren, infix_header_iff,
    infix_across_iff colon, infix_across_iff escape]
  simp only [infix_after_blank_iff, tail, or_false]

theorem not_mem_colourPrefix (record : EspRecord) {symbol : Char} (digit : symbol.isDigit = false)
    (other : symbol ∉ "\x1b[0;3m".toList) : symbol ∉ record.colourPrefix := by
  have digits : ∀ number : Fin 10, (Nat.digitChar number).isDigit = true := by decide
  have number : symbol ≠ Nat.digitChar record.colour := by
    intro same
    rw [same, digits] at digit
    cases digit
  have coloured : symbol ∉ "\x1b[0;3".toList ++ [Nat.digitChar record.colour, 'm'] := by
    simp at other ⊢
    simp [other, number]
  unfold colourPrefix
  cases record.level with
  | debug => exact List.not_mem_nil
  | info | warn | err => exact coloured

theorem not_mem_text (record : EspRecord) (terminated : record.Terminated) : '\x00' ∉ record.text := by
  have colour : '\x00' ∉ record.colourPrefix := not_mem_colourPrefix record rfl (by decide)
  have letter : '\x00' ≠ record.level.letter := by cases record.level <;> decide
  simp [text, header, colour, letter, not_mem_decimal, terminated.tag, terminated.message]

/-- A record that fits the buffer is logged, at the level found in it. -/
theorem vprintfOverride_text (record : EspRecord) (terminated : record.Terminated)
    (fits : record.text.length ≤ 255) :
    ∃ call, vprintfOverride record.text = .ok (some call, record.text.length) ∧
      (findLevel record.text).map Prod.snd = some call.lvl := by
  have own := (infix_text_iff record record.level).mpr (.inl rfl)
  obtain ⟨start, found, search⟩ := findLevel_exists own
  obtain ⟨call, parsed, logged⟩ := parseMessage_eq_ok search
  refine ⟨call, ?_, by rw [search, logged]; rfl⟩
  rw [vprintfOverride_of_fits (not_mem_text record terminated) (Nat.lt_succ_of_le fits), parsed]
  rfl

/-- The level found in a record is its own unless its tag or message misleads the search. -/
theorem findLevel_text_iff (record : EspRecord) :
    (findLevel record.text).map Prod.snd = some record.level ↔
      ∀ earlier ∈ searchedBefore record.level,
        ¬ marker earlier <:+: record.tag ∧ ¬ marker earlier <:+: record.message := by
  rw [findLevel_level_iff ((infix_text_iff record record.level).mpr (.inl rfl))]
  refine forall₂_congr fun earlier before => ?_
  have different : earlier ≠ record.level := by
    simpa using List.mem_takeWhile_imp before
  rw [infix_text_iff, or_iff_right different, not_or]

/-- A record that fits the buffer keeps its level just when neither its tag nor its
message contains the marker of a level that is looked for earlier. -/
theorem keepsLevel_iff (record : EspRecord) (terminated : record.Terminated)
    (fits : record.text.length ≤ 255) :
    record.KeepsLevel ↔ ∀ earlier ∈ searchedBefore record.level,
      ¬ marker earlier <:+: record.tag ∧ ¬ marker earlier <:+: record.message := by
  obtain ⟨call, logged, found⟩ := vprintfOverride_text record terminated fits
  rw [← findLevel_text_iff, found, Option.some.injEq]
  exact exists_logged_iff logged

/-- What `ESP_LOGW("bus", "SPI (2) busy")` formats. -/
def spiWarning : EspRecord := ⟨.warn, 3, 4321, "bus".toList, "SPI (2) busy".toList⟩

/-- The warning has the marker of an information record in its text and is logged as one. -/
theorem warning_logged_as_info : ¬ spiWarning.KeepsLevel := by
  intro keeps
  have logged : vprintfOverride spiWarning.text =
      .ok (some ⟨"busy\n".toList, .info, []⟩, spiWarning.text.length) := rfl
  cases (exists_logged_iff logged).mp keeps

/-- The same warning about another bus is logged as the warning it is. -/
theorem keepsLevel_of_warning :
    { spiWarning with message := "CAN (2) busy".toList : EspRecord }.KeepsLevel :=
  (keepsLevel_iff _ ⟨by decide, by decide⟩ (by decide)).mpr (by decide)

end Motohs.Logging
