import Motohs.Logging.Severity
import Motohs.Logging.Extract

/-! Which tag and message the hook gets back out of a record of ESP-IDF: all of
both, when the record fits the buffer and has a colon-free tag and one line, and
five bytes less of the message than the buffer holds, when it does not fit. -/

namespace Motohs.Logging

open Lib

namespace EspRecord

/-- From the level letter to the message, which the `": "` is in front of. -/
def fields (record : EspRecord) : List Char :=
  record.header ++ ')' :: (' ' :: (record.tag ++ ':' :: [' ']))

/-- Everything in front of the message. -/
def lead (record : EspRecord) : List Char := record.colourPrefix ++ record.fields

/-- Neither field holds a marker that is looked for before that of the record. -/
def Unmisled (record : EspRecord) : Prop :=
  ∀ earlier ∈ searchedBefore record.level,
    ¬ marker earlier <:+: record.tag ∧ ¬ marker earlier <:+: record.message

instance (record : EspRecord) : Decidable record.Unmisled :=
  inferInstanceAs (Decidable (∀ earlier ∈ searchedBefore record.level, _ ∧ _))

/-- The record is logged, once, with its own tag and its own message. -/
def Recovered (record : EspRecord) : Prop :=
  ∃ call, vprintfOverride record.text = .ok (some call, record.text.length) ∧
    call.tag = record.tag ∧ call.msg = record.message

/-- The record is logged, once, with as much of its message as the buffer takes in. -/
def KeepsWhatFits (record : EspRecord) : Prop :=
  ∃ call, vprintfOverride record.text = .ok (some call, record.text.length) ∧
    call.msg = record.message.take (messagePrintBuffer - 1 - record.lead.length)

/-- A record with nothing in its fields that the hook could trip over. -/
structure Plain (record : EspRecord) : Prop where
  terminated : record.Terminated
  colonFree : ':' ∉ record.tag
  singleLine : '\n' ∉ record.message
  unmarked : ∀ level, ¬ marker level <:+: record.tag ∧ ¬ marker level <:+: record.message

theorem text_eq (record : EspRecord) : record.text =
    record.colourPrefix ++ (record.fields ++ (record.message ++ "\x1b[0m\n".toList)) := by
  simp [text, fields]

theorem length_text (record : EspRecord) :
    record.text.length = record.lead.length + record.message.length + 5 := by
  simp [text_eq, lead]
  omega

theorem length_colourPrefix_le (record : EspRecord) : record.colourPrefix.length ≤ 7 := by
  unfold colourPrefix
  cases record.level <;> simp

end EspRecord

open EspRecord

theorem letter_not_mem_colourPrefix (record : EspRecord) :
    record.level.letter ∉ record.colourPrefix := by
  apply not_mem_colourPrefix
  · cases record.level <;> rfl
  · cases record.level <;> decide

/-- As long as the lead is there, the level is found where the record has it. -/
theorem findLevel_take (record : EspRecord) (unmisled : record.Unmisled)
    (reaches : record.lead.length ≤ size) :
    findLevel (record.text.take size) = some (record.colourPrefix.length, record.level) := by
  obtain ⟨back, split⟩ : ∃ back, record.text.take size =
      record.colourPrefix ++ (marker record.level ++ back) := by
    have whole : record.text = record.lead ++ (record.message ++ "\x1b[0m\n".toList) := by
      rw [text_eq, lead, List.append_assoc]
    rw [whole, List.take_append, List.take_of_length_le reaches, marker_eq]
    exact ⟨_, by simp only [lead, fields, header, List.append_assoc, List.cons_append]; rfl⟩
  have own : marker record.level <:+: record.text.take size := by
    rw [split]
    exact List.infix_append' _ _ _
  have level := (findLevel_level_iff own).mpr (by
    intro earlier before within
    have different : earlier ≠ record.level := by
      simpa using List.mem_takeWhile_imp before
    rcases (infix_text_iff record earlier).mp (within.trans (List.take_prefix _ _).isInfix) with
      same | inTag | inMessage
    · exact different same
    · exact (unmisled earlier before).1 inTag
    · exact (unmisled earlier before).2 inMessage)
  obtain ⟨⟨start, found⟩, search, same⟩ := Option.map_eq_some_iff.mp level
  cases same
  have first := findLevel_eq_some search
  rw [split, marker_eq, find_head (letter_not_mem_colourPrefix record)] at first
  cases first
  exact search

theorem paren_not_mem_header (record : EspRecord) : ')' ∉ record.header := by
  have letter : ')' ≠ record.level.letter := by cases record.level <;> decide
  simp [header, letter, not_mem_decimal]

theorem extract_fields (record : EspRecord) (colon : ':' ∉ record.tag) (message : List Char) :
    extract (record.fields ++ message) = (record.tag, message.takeWhile (· != '\n')) := by
  have complete : Extracted
      (record.header ++ ')' :: ([] ++ ' ' :: (record.tag ++ ':' :: ([] ++ ' ' :: message))))
      record.tag (message.takeWhile (· != '\n')) :=
    .complete (paren_not_mem_header record) List.not_mem_nil colon List.not_mem_nil
  rw [← complete.extract_eq]
  simp [fields]

/-- A record that fits the buffer comes down to its fields and its message. -/
theorem vprintfOverride_whole (record : EspRecord) (terminated : record.Terminated)
    (fits : record.text.length ≤ 255) (unmisled : record.Unmisled) :
    vprintfOverride record.text =
      .ok (some ⟨(extract (record.fields ++ record.message)).1, record.level,
        (extract (record.fields ++ record.message)).2⟩, record.text.length) := by
  have split : record.text =
      record.colourPrefix ++ ((record.fields ++ record.message) ++ "\x1b[0m\n".toList) := by
    rw [text_eq, List.append_assoc]
  have reaches : record.lead.length ≤ record.text.length := by
    rw [length_text]
    omega
  have found := findLevel_take record unmisled reaches
  rw [List.take_length, split] at found
  have small : record.text.length < UInt32.size := by
    simp only [UInt32.size]
    omega
  rw [split] at small
  have parsed := parseMessage_stripped found rfl small
  rw [← split] at parsed
  rw [vprintfOverride_of_fits (not_mem_text record terminated) (Nat.lt_succ_of_le fits), parsed]
  rfl

/-- A colon in the tag ends what is read as the tag. -/
theorem extract_cut_tag (record : EspRecord) (colon : ':' ∈ record.tag) :
    (extract (record.fields ++ record.message)).1 ≠ record.tag := by
  obtain ⟨front, back, split, absent⟩ := List.eq_append_cons_of_mem colon
  have read := extract_tag (paren_not_mem_header record) absent
    (back ++ ':' :: ' ' :: record.message)
  have same : record.fields ++ record.message = record.header ++
      ')' :: (' ' :: (front ++ ':' :: (back ++ ':' :: ' ' :: record.message))) := by
    simp [fields, split]
  rw [same, read, split]
  simp

/-- A record is recovered just when its tag has no colon and its message is one line. -/
theorem recovered_iff (record : EspRecord) (terminated : record.Terminated)
    (fits : record.text.length ≤ 255) (unmisled : record.Unmisled) :
    record.Recovered ↔ ':' ∉ record.tag ∧ '\n' ∉ record.message := by
  have logged := vprintfOverride_whole record terminated fits unmisled
  apply (exists_logged_iff logged).trans
  constructor
  · intro ⟨tag, message⟩
    have colon : ':' ∉ record.tag := fun colon => extract_cut_tag record colon tag
    refine ⟨colon, ?_⟩
    rw [extract_fields record colon] at message
    intro newline
    have other := List.takeWhile_eq_self_iff.mp message '\n' newline
    simp at other
  · intro ⟨colon, line⟩
    rw [extract_fields record colon]
    exact ⟨rfl, takeWhile_bne line⟩

/-- An error with leading blanks, parentheses and colons in its message. -/
def parseError : EspRecord :=
  { spiWarning with
    level := .err
    tag := "http (2)".toList
    message := "  at (3): no ':' found".toList }

theorem recovered_parseError : parseError.Recovered :=
  (recovered_iff parseError ⟨by decide, by decide⟩ (by decide) (by decide)).mpr
    ⟨by decide, by decide⟩

/-- A cut inside the lead leaves nothing to be read as a message. -/
theorem extract_cut_lead (record : EspRecord) (colon : ':' ∉ record.tag)
    (cut : count < record.fields.length) : (extract (record.fields.take count)).2 = [] := by
  have divided := extracted (record.fields.take count)
  have lost : record.fields.drop count ≠ [] := by
    simpa using cut
  have whole : record.fields.take count ++ record.fields.drop count =
      record.header ++ ')' :: ([] ++ ' ' :: (record.tag ++ ':' :: ([] ++ ' ' :: []))) :=
    List.take_append_drop count record.fields
  generalize record.fields.take count = sub at divided whole ⊢
  generalize (extract sub).1 = tag at divided
  generalize (extract sub).2 = message at divided ⊢
  cases divided with
  | noParen _ | noBlank _ _ | noColon _ _ _ | noSpace _ _ _ _ => rfl
  | complete paren blank otherColon space =>
    -- Both divisions are at the first delimiters, so nothing can follow the last blank.
    simp only [List.append_assoc, List.cons_append] at whole
    obtain ⟨_, whole⟩ := split_unique paren (paren_not_mem_header record) whole
    obtain ⟨_, whole⟩ := split_unique blank List.not_mem_nil whole
    obtain ⟨_, whole⟩ := split_unique otherColon colon whole
    obtain ⟨_, whole⟩ := split_unique space List.not_mem_nil whole
    exact absurd (List.append_eq_nil_iff.mp whole).2 lost

theorem extract_cut (record : EspRecord) (plain : record.Plain) (overlong : 255 < record.text.length) :
    (extract ((record.fields ++ (record.message ++ "\x1b[0m\n".toList)).take
        (250 - record.colourPrefix.length))).2 = record.message.take (250 - record.lead.length) := by
  have before := length_colourPrefix_le record
  have length : record.lead.length = record.colourPrefix.length + record.fields.length :=
    List.length_append
  by_cases whole : record.lead.length ≤ 250
  · have within : 250 - record.lead.length ≤ record.message.length := by
      rw [length_text] at overlong
      omega
    have line : '\n' ∉ record.message.take (250 - record.lead.length) :=
      fun member => plain.singleLine (List.mem_of_mem_take member)
    rw [List.take_append, List.take_of_length_le (by omega), Nat.sub_sub, ← length,
      List.take_append_of_le_length within, extract_fields record plain.colonFree]
    exact takeWhile_bne line
  · rw [List.take_append_of_le_length (by omega), extract_cut_lead record plain.colonFree (by omega),
      Nat.sub_eq_zero_of_le (by omega), List.take_zero]

/-- Of a record that is too long, the five bytes that are stripped come off the
message in the buffer. -/
theorem vprintfOverride_overlong (record : EspRecord) (plain : record.Plain)
    (reaches : record.lead.length ≤ 255) (overlong : 255 < record.text.length) :
    ∃ call, vprintfOverride record.text = .ok (some call, record.text.length) ∧
      call.msg = record.message.take (250 - record.lead.length) := by
  have unmisled : record.Unmisled := fun earlier _ => plain.unmarked earlier
  have found := findLevel_take record unmisled reaches
  have before := length_colourPrefix_le record
  have front : (record.text.take 255).take 250 = record.colourPrefix ++
      (record.fields ++ (record.message ++ "\x1b[0m\n".toList)).take
        (250 - record.colourPrefix.length) := by
    rw [List.take_take, text_eq, List.take_append, List.take_of_length_le (by omega)]
    rfl
  have five : ((record.text.take 255).drop 250).length = tailEscapeSeqLen := by
    rw [List.length_drop, List.length_take, Nat.min_eq_left overlong.le]
    rfl
  have split := List.take_append_drop 250 (record.text.take 255)
  rw [front, List.append_assoc] at split
  rw [← split] at found
  have small : (record.text.take 255).length < UInt32.size := by
    rw [List.length_take]
    simp only [UInt32.size]
    omega
  rw [← split] at small
  have parsed := parseMessage_stripped found five small
  rw [split] at parsed
  have logged := vprintfOverride_eq (not_mem_text record plain.terminated)
  change _ = (parseMessage (record.text.take 255)).map _ at logged
  rw [parsed] at logged
  exact ⟨_, logged, extract_cut record plain overlong⟩

/-- Of a record that is too long the whole part in the buffer is kept just when no
byte of its message has got that far. -/
theorem keepsWhatFits_iff (record : EspRecord) (plain : record.Plain)
    (reaches : record.lead.length ≤ 255) (overlong : 255 < record.text.length) :
    record.KeepsWhatFits ↔ record.message = [] ∨ record.lead.length = 255 := by
  obtain ⟨call, logged, message⟩ := vprintfOverride_overlong record plain reaches overlong
  have fits : record.KeepsWhatFits ↔
      call.msg = record.message.take (255 - record.lead.length) := exists_logged_iff logged
  have length := length_text record
  rw [fits, message]
  constructor
  · intro same
    have lengths := congrArg List.length same
    rw [List.length_take, List.length_take] at lengths
    rw [← List.length_eq_zero_iff]
    omega
  · intro unreached
    rcases unreached with empty | full
    · simp [empty]
    · simp [full]

/-- A record with so many bytes in its tag and in its message. -/
def filled (tag message : Nat) : EspRecord :=
  { spiWarning with
    level := .info
    tag := List.replicate tag 't'
    message := List.replicate message 'x' }

theorem plain_filled (tag message : Nat) : (filled tag message).Plain := by
  have inTag {symbol : Char} (other : symbol ≠ 't') : symbol ∉ (filled tag message).tag :=
    fun member => other (List.eq_of_mem_replicate member)
  have inMessage {symbol : Char} (other : symbol ≠ 'x') : symbol ∉ (filled tag message).message :=
    fun member => other (List.eq_of_mem_replicate member)
  refine ⟨⟨inTag (by decide), inMessage (by decide)⟩, inTag (by decide), inMessage (by decide), ?_⟩
  intro level
  have bracket : '(' ∈ marker level := by cases level <;> decide
  constructor
  · exact not_infix_of_missing (inTag (by decide)) bracket
  · exact not_infix_of_missing (inMessage (by decide)) bracket

theorem length_lead_filled (tag message : Nat) : (filled tag message).lead.length = tag + 18 := by
  have digits : (decimal spiWarning.timestamp).length = 4 := by decide
  simp [filled, lead, fields, header, colourPrefix, digits]
  omega

theorem length_text_filled (tag message : Nat) :
    (filled tag message).text.length = tag + message + 23 := by
  have tail : (filled tag message).message.length = message := List.length_replicate
  rw [length_text, length_lead_filled, tail]
  omega

/-- A message of 230 bytes that all lie in the buffer is logged without its last byte. -/
theorem filled_cut : (filled 3 230).Plain ∧ (filled 3 230).lead.length ≤ 255 ∧
    255 < (filled 3 230).text.length ∧ ¬ (filled 3 230).KeepsWhatFits := by
  have reaches : (filled 3 230).lead.length ≤ 255 := by
    rw [length_lead_filled]
    omega
  have overlong : 255 < (filled 3 230).text.length := by
    rw [length_text_filled]
    omega
  refine ⟨plain_filled 3 230, reaches, overlong, ?_⟩
  intro keeps
  obtain ⟨call, logged, message⟩ := vprintfOverride_overlong _ (plain_filled 3 230) reaches overlong
  have lengths := congrArg List.length (message.symm.trans ((exists_logged_iff logged).mp keeps))
  rw [List.length_take, List.length_take, length_lead_filled, filled, List.length_replicate] at lengths
  revert lengths
  decide

/-- With an empty message behind a tag of 235 bytes there is nothing to lose. -/
theorem keepsWhatFits_filled : (filled 235 0).KeepsWhatFits := by
  have reaches : (filled 235 0).lead.length ≤ 255 := by
    rw [length_lead_filled]
    omega
  have overlong : 255 < (filled 235 0).text.length := by
    rw [length_text_filled]
    omega
  exact (keepsWhatFits_iff (filled 235 0) (plain_filled 235 0) reaches overlong).mpr (.inl rfl)

end Motohs.Logging
