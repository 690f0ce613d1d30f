import Motohs.Lib.Text
import Motohs.Lib.InputStream

/-! The hook that ESP-IDF logging is sent through: `vprintf_override` takes a
formatted record and `parse_message` takes it apart and logs it anew. A `Char`
stands for one byte of the text. -/

namespace Motohs.Logging

open Lib

/-- `level_enum`, less its count `n_levels`. -/
inductive Level where
  | debug
  | info
  | warn
  | err
  deriving DecidableEq, Repr

/-- A call `log_(tag, lvl, msg)` of the overload for strings. -/
structure LogCall where
  tag : List Char
  lvl : Level
  msg : List Char
  deriving DecidableEq, Repr

inductive Thrown where
  | outOfRange
  deriving DecidableEq, Repr

def tailEscapeSeqLen : Nat := 5

def messagePrintBuffer : Nat := 256

/-- What `parse_message` looks for to tell a record of the level. -/
def marker : Level → List Char
  | .info => "I (".toList
  | .warn => "W (".toList
  | .err => "E (".toList
  | .debug => "D (".toList

/-- `begin` and `level` after the four searches, the first to succeed deciding. -/
def findLevel (msg : List Char) : Option (Nat × Level) :=
  (find (marker .info) msg).map (·, .info) <|>
  (find (marker .warn) msg).map (·, .warn) <|>
  (find (marker .err) msg).map (·, .err) <|>
  (find (marker .debug) msg).map (·, .debug)

/-- `msg.size() - begin - TAIL_ESCAPE_SEQ_LEN` in `size_t`. -/
def strippedSize (size start : Nat) : Nat :=
  (UInt32.ofNat size - UInt32.ofNat start - UInt32.ofNat tailEscapeSeqLen).toNat

/-- The five extractions from the stream over `sub`: the tag and the message. -/
def extract (sub : List Char) : List Char × List Char :=
  let iss := InputStream.ofText (sub ++ ['\n'])
  let iss := iss.ignore ')'
  let iss := iss.ignore ' '
  let (tag, iss) := iss.getline ':' []
  let iss := iss.ignore ' '
  let (logMsg, _) := iss.getline '\n' []
  (tag, logMsg)

def parseMessage (msg : List Char) : Except Thrown (Option LogCall) :=
  match findLevel msg with
  | none => .ok none
  | some (start, level) =>
    match substr? msg start (strippedSize msg.length start) with
    | none => .error .outOfRange
    | some sub =>
      let (tag, logMsg) := extract sub
      .ok (some ⟨tag, level, logMsg⟩)

/-- What `vsnprintf` leaves in a buffer of the given size. -/
def vsnprintf (size : Nat) (formatted : List Char) : List Char :=
  formatted.take (size - 1) ++ ['\x00']

/-- The call to `log_`, if there is one, and the value returned. `formatted` is what
the format string and its arguments come to. -/
def vprintfOverride (formatted : List Char) : Except Thrown (Option LogCall × Nat) := do
  let buf := vsnprintf messagePrintBuffer formatted
  let call ← parseMessage (cString '\x00' buf)
  pure (call, formatted.length)

/-- The order of the searches. -/
def searched : List Level := [.info, .warn, .err, .debug]

/-- The levels whose marker is looked for before that of the given one. -/
def searchedBefore (level : Level) : List Level := searched.takeWhile (· != level)

theorem findLevel_eq (msg : List Char) :
    findLevel msg = searched.findSome? fun level => (find (marker level) msg).map (·, level) := by
  simp only [findLevel, searched, List.findSome?_cons, List.findSome?_nil]
  cases find (marker .info) msg <;> cases find (marker .warn) msg <;>
    cases find (marker .err) msg <;> cases find (marker .debug) msg <;> rfl

theorem findLevel_eq_some (found : findLevel msg = some (start, level)) :
    find (marker level) msg = some start := by
  rw [findLevel_eq] at found
  obtain ⟨_, other, _, _, here, _⟩ := List.findSome?_eq_some_iff.mp found
  obtain ⟨position, within, same⟩ := Option.map_eq_some_iff.mp here
  cases same
  exact within

theorem findLevel_exists (own : marker level <:+: msg) :
    ∃ start found, findLevel msg = some (start, found) := by
  cases search : findLevel msg with
  | some found => exact ⟨found.1, found.2, rfl⟩
  | none =>
    rw [findLevel_eq, List.findSome?_eq_none_iff] at search
    have missing := search level (by cases level <;> decide)
    rw [Option.map_eq_none_iff, find_eq_none_iff] at missing
    exact absurd own missing

/-- In a text with the marker of a level, that level is found unless an earlier
search succeeds. -/
theorem findLevel_level_iff (own : marker level <:+: msg) :
    (findLevel msg).map Prod.snd = some level ↔
      ∀ earlier ∈ searchedBefore level, ¬ marker earlier <:+: msg := by
  have among : level ∈ searched := by cases level <;> decide
  rw [findLevel_eq, searchedBefore]
  generalize searched = levels at among
  induction levels with
  | nil => cases among
  | cons first rest ih =>
    by_cases same : first = level
    · subst same
      obtain ⟨start, found⟩ := Option.isSome_iff_exists.mp (find_isSome_iff.mpr own)
      simp [found]
    · have later : level ∈ rest := by
        rcases List.mem_cons.mp among with here | later
        · exact absurd here.symm same
        · exact later
      rw [List.findSome?_cons, List.takeWhile_cons_of_pos (by simpa using same),
        List.forall_mem_cons]
      by_cases within : marker first <:+: msg
      · obtain ⟨start, found⟩ := Option.isSome_iff_exists.mp (find_isSome_iff.mpr within)
        simp [found, within, same]
      · rw [find_eq_none_iff.mpr within]
        simpa [within] using ih later

/-- What is found lies in the text, so the substring is never out of range. -/
theorem parseMessage_found (found : findLevel msg = some (start, level)) :
    parseMessage msg =
      let sub := (msg.drop start).take (strippedSize msg.length start)
      .ok (some ⟨(extract sub).1, level, (extract sub).2⟩) := by
  have inside := find_le_length (findLevel_eq_some found)
  simp only [parseMessage, found, substr?, inside, ↓reduceIte]

theorem parseMessage_eq_ok (found : findLevel msg = some (start, level)) :
    ∃ call, parseMessage msg = .ok (some call) ∧ call.lvl = level :=
  ⟨_, parseMessage_found found, rfl⟩

theorem strippedSize_toNat (size start : Nat) : strippedSize size start =
    (size % UInt32.size + (UInt32.size - start % UInt32.size) + (UInt32.size - 5)) % UInt32.size := by
  simp only [strippedSize, tailEscapeSeqLen, UInt32.toNat_sub, UInt32.toNat_ofNat', UInt32.size]
  omega

theorem strippedSize_eq (room : start + tailEscapeSeqLen ≤ size) (small : size < UInt32.size) :
    strippedSize size start = size - start - tailEscapeSeqLen := by
  rw [strippedSize_toNat]
  simp only [tailEscapeSeqLen, UInt32.size] at *
  omega

/-- With the level found, the five bytes at the end go and the rest is divided. -/
theorem parseMessage_stripped {front body tail : List Char}
    (found : findLevel (front ++ (body ++ tail)) = some (front.length, level))
    (five : tail.length = tailEscapeSeqLen) (small : (front ++ (body ++ tail)).length < UInt32.size) :
    parseMessage (front ++ (body ++ tail)) =
      .ok (some ⟨(extract body).1, level, (extract body).2⟩) := by
  have size : strippedSize (front ++ (body ++ tail)).length front.length = body.length := by
    rw [strippedSize_eq _ small]
    · simp [five]
    · simp [five]
  rw [parseMessage_found found, size, List.drop_left]
  simp

/-- What `vprintf_override` hands to `parse_message`. -/
def buffered (formatted : List Char) : List Char :=
  cString '\x00' (vsnprintf messagePrintBuffer formatted)

theorem vprintfOverride_buffered (formatted : List Char) : vprintfOverride formatted =
    (parseMessage (buffered formatted)).map (·, formatted.length) := by
  unfold vprintfOverride
  change (parseMessage (buffered formatted) >>= fun call => pure (call, formatted.length)) = _
  cases parseMessage (buffered formatted) <;> rfl

/-- Of a text that is logged, what is asked of the call is asked of the one that is made. -/
theorem exists_logged_iff {ok : LogCall → Prop}
    (logged : vprintfOverride text = .ok (some call, value)) :
    (∃ other, vprintfOverride text = .ok (some other, value) ∧ ok other) ↔ ok call := by
  constructor
  · intro ⟨other, reported, holds⟩
    rw [logged] at reported
    cases reported
    exact holds
  · intro holds
    exact ⟨call, logged, holds⟩

theorem vprintfOverride_eq (terminated : '\x00' ∉ text) : vprintfOverride text =
    (parseMessage (text.take (messagePrintBuffer - 1))).map (·, text.length) := by
  have kept : '\x00' ∉ text.take (messagePrintBuffer - 1) :=
    fun member => terminated (List.mem_of_mem_take member)
  rw [vprintfOverride_buffered, buffered, vsnprintf, cString_append kept]

theorem vprintfOverride_of_fits (terminated : '\x00' ∉ text) (fits : text.length < messagePrintBuffer) :
    vprintfOverride text = (parseMessage text).map (·, text.length) := by
  rw [vprintfOverride_eq terminated, List.take_of_length_le (Nat.le_sub_one_of_lt fits)]

end Motohs.Logging
