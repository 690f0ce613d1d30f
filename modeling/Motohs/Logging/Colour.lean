import Motohs.Lib.Machine
import Motohs.Lib.Terminal
import Motohs.Logging.Extract
import Motohs.Logging.Logger

/-! Whether what the logger prints leaves the terminal as it was. The colour mode is
set and never looked at, and only one overload of `log_` takes its colours back. -/

namespace Motohs.Logging

open Lib

namespace LogEvent

def isInit : LogEvent → Bool
  | .init _ => true
  | _ => false

def mode? : LogEvent → Option Bool
  | .init mode | .setColorMode mode => some mode
  | .log _ _ _ _ | .espLog _ _ => none

/-- Neither the tag nor the text that is to be printed has an escape in it. -/
def Plain : LogEvent → Prop
  | .init _ | .setColorMode _ => True
  | .log _ tag _ text => '\x1b' ∉ tag ∧ ∀ formatted ∈ text, '\x1b' ∉ formatted
  | .espLog _ formatted => ∀ call value, vprintfOverride formatted = .ok (some call, value) →
    '\x1b' ∉ call.tag ∧ '\x1b' ∉ call.msg

end LogEvent

def initialized (past : List LogEvent) : Bool := past.any LogEvent.isInit

/-- The colour mode last set. It is on as long as none is set. -/
def lastMode (past : List LogEvent) : Bool := (past.filterMap LogEvent.mode?).getLast?.getD true

/-- What is asked of the lines of a run: no escapes with the mode off, and with the
mode on a terminal without attributes after them. -/
def ColourDiscipline (fmt : Fmt) : List LogEvent → Prop :=
  EachAfter fun past event => ∀ line, (Session.after fmt past).logger.printed fmt event = some line →
    if lastMode past then
      Terminal.fresh.write ((Session.after fmt past).console ++ line) = Terminal.fresh
    else '\x1b' ∉ line

/-- The text of the call is printed, if at all, by the overload for strings and with
the mode on. -/
def TakesBack (past : List LogEvent) : LogEvent → Prop
  | .init _ | .setColorMode _ => True
  | .log _ _ _ text => text = none
  | .espLog _ formatted => initialized past = true → (findLevel (buffered formatted)).isSome = true →
    lastMode past = true

/-- The settings are told by the calls that were made. -/
theorem logger_after (fmt : Fmt) (past : List LogEvent) : (Session.after fmt past).logger =
    ⟨if initialized past then colour else fun _ => [], lastMode past, initialized past⟩ := by
  induction past using List.reverseRecOn with
  | nil => rfl
  | append_singleton past event same =>
    rw [Session.after_concat]
    change (Session.after fmt past).logger.step event = _
    rw [same]
    cases event <;> simp [Logger.step, Logger.init, Logger.setColorMode, initialized,
      LogEvent.isInit, lastMode, LogEvent.mode?]

/-- A text without a marker is dropped, any other is logged, as a C string again. -/
theorem vprintfOverride_cases (formatted : List Char) :
    (findLevel (buffered formatted)).isSome = false ∧
        vprintfOverride formatted = .ok (none, formatted.length) ∨
      (findLevel (buffered formatted)).isSome = true ∧ ∃ call,
        vprintfOverride formatted = .ok (some call, formatted.length) ∧
          '\x00' ∉ call.tag ∧ '\x00' ∉ call.msg := by
  rw [vprintfOverride_buffered]
  cases search : findLevel (buffered formatted) with
  | none =>
    left
    simp only [parseMessage, search]
    exact ⟨rfl, rfl⟩
  | some found =>
    right
    obtain ⟨start, level⟩ := found
    rw [parseMessage_found search]
    have terminated : '\x00' ∉ buffered formatted := by
      intro member
      have kept := List.mem_takeWhile_imp member
      cases kept
    have absent {part : List Char} (taken : ∀ symbol ∈ part, symbol ∈ (buffered formatted).drop start ∨
        symbol = '\n') : '\x00' ∉ part := by
      intro member
      rcases taken _ member with inside | newline
      · exact terminated (List.mem_of_mem_drop inside)
      · cases newline
    refine ⟨rfl, ⟨_, level, _⟩, rfl, absent ?_, absent ?_⟩
    · intro symbol member
      exact ((extracted _).mem_or_newline (.inl member)).imp_left List.mem_of_mem_take
    · intro symbol member
      exact ((extracted _).mem_or_newline (.inr member)).imp_left List.mem_of_mem_take

section Line

variable (fmt : Fmt) (time : ClockTime) (tag : List Char)

/-- What stands between the escapes of `prefix`. -/
def Fmt.label : List Char :=
  '[' :: fmt.clock time ++ "][".toList ++ fmt.centred tag ++ "]:".toList

theorem tagPrefix_eq (rest : List Char) : fmt.tagPrefix time tag ++ rest =
    bold ++ (fmt.label time tag ++ (white ++ ' ' :: rest)) := by
  simp [Fmt.tagPrefix, Fmt.label]

/-- The label adds nothing but digits, brackets, colons and blanks to the tag. -/
theorem not_mem_label {symbol : Char} (absent : symbol ∉ tag) (digit : symbol.isDigit = false)
    (other : symbol ∉ " []:".toList) : symbol ∉ fmt.label time tag := by
  intro member
  obtain ⟨left, right, padded⟩ := fmt.centred_pads tag
  have clock : symbol ∉ fmt.clock time := by
    intro inside
    rcases fmt.clock_symbols time symbol inside with numeral | colon
    · rw [numeral] at digit
      cases digit
    · exact other (by simp [colon])
  simp only [String.reduceToList, List.mem_cons, List.not_mem_nil, or_false, not_or] at other
  simp [Fmt.label, padded, absent, clock, other] at member

end Line

/-- The colour of a level, if it is set at all, is on its own one control sequence. -/
structure Settled (logger : Logger) : Prop where
  terminated : ∀ lvl, '\x00' ∉ logger.colors lvl
  selects : ∀ lvl selected, ∃ more,
    (Terminal.mk .text selected).write (logger.colors lvl) = ⟨.text, more ++ selected⟩

theorem settled_after (fmt : Fmt) (past : List LogEvent) : Settled (Session.after fmt past).logger := by
  rw [logger_after]
  cases initialized past with
  | false => exact ⟨fun _ => List.not_mem_nil, fun _ selected => ⟨[], rfl⟩⟩
  | true =>
    constructor
    · intro lvl
      change '\x00' ∉ colour lvl
      cases lvl <;> decide
    · intro lvl selected
      cases lvl with
      | debug => exact ⟨[36], rfl⟩
      | info => exact ⟨[32], rfl⟩
      | warn => exact ⟨[33], rfl⟩
      | err => exact ⟨[31], rfl⟩

section Write

variable {logger : Logger} (settled : Settled logger) (fmt : Fmt) (time : ClockTime)
include settled

/-- Every line with a label is printed through its first escapes. -/
theorem printLine_front (tag : List Char) (lvl : Level) (rest : List Char) :
    printLine (logger.colors lvl ++ fmt.tagPrefix time tag ++ rest) = logger.colors lvl ++
      (bold ++ printLine (fmt.label time tag ++ (white ++ ' ' :: rest))) := by
  rw [List.append_assoc, tagPrefix_eq, printLine_append (settled.terminated lvl),
    printLine_append (by decide)]

theorem escape_mem_printLine (tag : List Char) (lvl : Level) (rest : List Char) :
    '\x1b' ∈ printLine (logger.colors lvl ++ fmt.tagPrefix time tag ++ rest) := by
  rw [printLine_front settled]
  simp [bold]

/-- At the label the terminal is bold. -/
theorem write_front (lvl : Level) (selected : List Nat) (rest : List Char) : ∃ more,
    (Terminal.mk .text selected).write (logger.colors lvl ++ (bold ++ rest)) =
      (Terminal.mk .text (1 :: more)).write rest := by
  obtain ⟨more, colours⟩ := settled.selects lvl selected
  refine ⟨more ++ selected, ?_⟩
  rw [Terminal.write_append, Terminal.write_append, colours]
  rfl

/-- The overload for strings ends each line with the reset. -/
theorem write_logString {call : LogCall} (terminated : '\x00' ∉ call.tag ∧ '\x00' ∉ call.msg)
    (plain : '\x1b' ∉ call.tag ∧ '\x1b' ∉ call.msg) (selected : List Nat) :
    (Terminal.mk .text selected).write (logger.logString fmt time call) = .fresh := by
  have whole : '\x00' ∉ fmt.label time call.tag := not_mem_label fmt time call.tag terminated.1 rfl (by decide)
  have quiet : '\x1b' ∉ fmt.label time call.tag := not_mem_label fmt time call.tag plain.1 rfl (by decide)
  have message : '\x1b' ∉ ' ' :: call.msg := by simp [plain.2]
  have printed : printLine (fmt.label time call.tag ++ (white ++ ' ' :: (call.msg ++ reset))) =
      fmt.label time call.tag ++ (white ++ ((' ' :: call.msg) ++ (reset ++ ['\n']))) := by
    rw [printLine_append whole, printLine_append (by decide), printLine_terminated]
    · simp
    · simp [reset, terminated.2]
  have front := printLine_front settled fmt time call.tag call.lvl (call.msg ++ reset)
  rw [← List.append_assoc, printed] at front
  obtain ⟨more, bolded⟩ := write_front settled call.lvl selected
    (fmt.label time call.tag ++ (white ++ ((' ' :: call.msg) ++ (reset ++ ['\n']))))
  rw [Logger.logString, front, bolded, Terminal.write_append, Terminal.write_plain quiet,
    Terminal.write_append]
  change ((Terminal.mk .text (37 :: 1 :: more)).write _) = _
  rw [Terminal.write_append, Terminal.write_plain message]
  rfl

/-- The overload for formats leaves its line as it is, bold at the least. -/
theorem write_logFormatted {tag text : List Char} (lvl : Level) (plainTag : '\x1b' ∉ tag)
    (plainText : '\x1b' ∉ text) (selected : List Nat) :
    1 ∈ ((Terminal.mk .text selected).write
      (logger.logFormatted fmt time tag lvl (some text))).selected := by
  have quiet : '\x1b' ∉ fmt.label time tag := not_mem_label fmt time tag plainTag rfl (by decide)
  obtain ⟨more, bolded⟩ := write_front settled lvl selected
    (printLine (fmt.label time tag ++ (white ++ ' ' :: text)))
  have line : logger.logFormatted fmt time tag lvl (some text) = logger.colors lvl ++
      (bold ++ printLine (fmt.label time tag ++ (white ++ ' ' :: text))) :=
    printLine_front settled fmt time tag lvl text
  rw [line, bolded]
  by_cases cut : '\x00' ∈ fmt.label time tag
  · -- A terminator in the tag ends the line inside the label.
    obtain ⟨shown, hidden, split, whole⟩ := List.eq_append_cons_of_mem cut
    rw [split] at quiet ⊢
    rw [List.append_assoc, List.cons_append, printLine_cut whole, Terminal.write_plain]
    · exact List.mem_cons_self
    · simp at quiet ⊢
      exact quiet.1
  · have rest : '\x1b' ∉ printLine (' ' :: text) := by
      intro member
      rcases mem_printLine member with inside | newline
      · simp [plainText] at inside
      · cases newline
    rw [printLine_append cut, printLine_append (by decide), Terminal.write_append,
      Terminal.write_plain quiet, Terminal.write_append]
    change 1 ∈ ((Terminal.mk .text (37 :: 1 :: more)).write _).selected
    rw [Terminal.write_plain rest]
    simp

end Write

theorem printed_espLog (fmt : Fmt) (past : List LogEvent) (time : ClockTime) (formatted : List Char) :
    (Session.after fmt past).logger.printed fmt (.espLog time formatted) = none ∧
        (initialized past = true → (findLevel (buffered formatted)).isSome = false) ∨
      initialized past = true ∧ (findLevel (buffered formatted)).isSome = true ∧ ∃ call,
        vprintfOverride formatted = .ok (some call, formatted.length) ∧
        ('\x00' ∉ call.tag ∧ '\x00' ∉ call.msg) ∧
        (Session.after fmt past).logger.printed fmt (.espLog time formatted) =
          some ((Session.after fmt past).logger.logString fmt time call) := by
  have hooked : (Session.after fmt past).logger.hooked = initialized past := by
    rw [logger_after]
  by_cases ready : initialized past = true
  · rcases vprintfOverride_cases formatted with ⟨missing, dropped⟩ | ⟨marked, call, logged, terminated⟩
    · left
      simp [Logger.printed, dropped, missing]
    · right
      refine ⟨ready, marked, call, logged, terminated, ?_⟩
      simp [Logger.printed, hooked, ready, logged]
  · left
    simp [Logger.printed, hooked, ready]

/-- A call that takes its colours back, or prints none, leaves a fresh terminal fresh. -/
theorem write_of_takesBack {fmt : Fmt} (plain : event.Plain) (takesBack : TakesBack past event)
    (printed : (Session.after fmt past).logger.printed fmt event = some line) :
    Terminal.fresh.write line = .fresh := by
  cases event with
  | init _ => cases printed
  | setColorMode _ => cases printed
  | log time tag lvl text =>
    change text = none at takesBack
    subst takesBack
    cases printed
    rfl
  | espLog time formatted =>
    rcases printed_espLog fmt past time formatted with ⟨nothing, _⟩ | ⟨_, _, call, logged, terminated, shown⟩
    · rw [nothing] at printed
      cases printed
    · rw [shown] at printed
      cases printed
      exact write_logString (settled_after fmt past) fmt time terminated (plain call _ logged) []

theorem fresh_of_takesBack (fmt : Fmt) (plain : ∀ event ∈ events, event.Plain)
    (takesBack : EachAfter TakesBack events) :
    Terminal.fresh.write (Session.after fmt events).console = .fresh := by
  induction events using List.reverseRecOn with
  | nil => rfl
  | append_singleton past event ih =>
    obtain ⟨earlier, here⟩ := eachAfter_concat.mp takesBack
    have before := ih (fun other member => plain other (List.mem_append_left _ member)) earlier
    rw [Session.after_concat]
    change Terminal.fresh.write ((Session.after fmt past).console ++ _) = _
    rw [Terminal.write_append, before]
    cases printed : (Session.after fmt past).logger.printed fmt event with
    | none => rfl
    | some line => exact write_of_takesBack (plain event (by simp)) here printed

/-- On a fresh terminal a call keeps the discipline just when it takes its colours back. -/
theorem discipline_step_iff (fmt : Fmt) (plain : event.Plain)
    (fresh : Terminal.fresh.write (Session.after fmt past).console = .fresh) :
    (∀ line, (Session.after fmt past).logger.printed fmt event = some line →
      if lastMode past then
        Terminal.fresh.write ((Session.after fmt past).console ++ line) = Terminal.fresh
      else '\x1b' ∉ line) ↔ TakesBack past event := by
  have settled := settled_after fmt past
  simp only [Terminal.write_append, fresh]
  constructor
  · intro kept
    cases event with
    | init _ => trivial
    | setColorMode _ => trivial
    | log time tag lvl text =>
      cases text with
      | none => rfl
      | some text =>
        exfalso
        have line := kept _ rfl
        split at line
        · have bolded := write_logFormatted settled fmt time lvl plain.1 (plain.2 text rfl) []
          rw [Terminal.fresh] at line
          rw [line] at bolded
          cases bolded
        · exact line (escape_mem_printLine settled fmt time tag lvl text)
    | espLog time formatted =>
      intro ready marked
      rcases printed_espLog fmt past time formatted with ⟨_, unmarked⟩ | ⟨_, _, call, _, _, shown⟩
      · rw [unmarked ready] at marked
        cases marked
      · have line := kept _ shown
        split at line
        · assumption
        · rw [Logger.logString, List.append_assoc] at line
          exact absurd (escape_mem_printLine settled fmt time call.tag call.lvl _) line
  · intro takesBack line printed
    by_cases mode : lastMode past = true
    · rw [if_pos mode]
      exact write_of_takesBack plain takesBack printed
    · rw [if_neg mode]
      cases event with
      | init _ => cases printed
      | setColorMode _ => cases printed
      | log time tag lvl text =>
        change text = none at takesBack
        subst takesBack
        cases printed
        change '\x1b' ∉ "log error\n".toList
        decide
      | espLog time formatted =>
        rcases printed_espLog fmt past time formatted with ⟨nothing, _⟩ | ⟨ready, marked, _⟩
        · rw [nothing] at printed
          cases printed
        · exact absurd (takesBack ready marked) mode

/-- A run keeps the discipline just when each text in it is printed by the overload
for strings, with the mode on. -/
theorem colourDiscipline_iff (fmt : Fmt) (events : List LogEvent)
    (plain : ∀ event ∈ events, event.Plain) :
    ColourDiscipline fmt events ↔ EachAfter TakesBack events := by
  induction events using List.reverseRecOn with
  | nil => exact iff_of_true (eachAfter_nil _) (eachAfter_nil _)
  | append_singleton past event ih =>
    have earlier : ∀ other ∈ past, other.Plain :=
      fun other member => plain other (List.mem_append_left _ member)
    rw [ColourDiscipline, eachAfter_concat, eachAfter_concat]
    change ColourDiscipline fmt past ∧ _ ↔ _
    rw [ih earlier]
    apply and_congr_right
    intro takesBack
    exact discipline_step_iff fmt (plain event (by simp)) (fresh_of_takesBack fmt earlier takesBack)

def twoDigits (number : Nat) : List Char :=
  [Nat.digitChar (number / 10), Nat.digitChar (number % 10)]

theorem isDigit_of_mem_twoDigits (small : number < 100) (member : symbol ∈ twoDigits number) :
    symbol.isDigit = true := by
  have digit : ∀ digit : Fin 10, (Nat.digitChar digit).isDigit = true := by decide
  simp only [twoDigits, List.mem_cons, List.not_mem_nil, or_false] at member
  rcases member with rfl | rfl
  · exact digit ⟨number / 10, by omega⟩
  · exact digit ⟨number % 10, by omega⟩

/-- The two formats for tags in which every byte is a character. -/
def asciiFmt : Fmt where
  clock time := twoDigits time.hour ++ ':' :: twoDigits time.minute ++ ':' :: twoDigits time.second
  clock_symbols time symbol member := by
    simp only [List.append_assoc, List.cons_append, List.mem_append, List.mem_cons] at member
    rcases member with hour | colon | minute | colon | second
    · exact .inl (isDigit_of_mem_twoDigits (by omega) hour)
    · exact .inr colon
    · exact .inl (isDigit_of_mem_twoDigits (by omega) minute)
    · exact .inr colon
    · exact .inl (isDigit_of_mem_twoDigits (by omega) second)
  centred text :=
    List.replicate ((10 - text.length) / 2) ' ' ++ text ++
      List.replicate (10 - text.length - (10 - text.length) / 2) ' '
  centred_pads text := ⟨_, _, rfl⟩

/-- What `main` logs first. -/
def started : LogEvent := .log ⟨12, 0, 0⟩ "Main".toList .info (some "Motoheadset started".toList)

theorem plain_started : started.Plain := by
  refine ⟨by decide, ?_⟩
  intro formatted same
  cases same
  decide

theorem not_disciplined_started (mode : Bool) : ¬ ColourDiscipline asciiFmt [.init mode, started] := by
  intro disciplined
  have fresh : Terminal.fresh.write (Session.after asciiFmt [.init mode]).console = .fresh := rfl
  have kept := disciplined [.init mode] started [] rfl
  cases (discipline_step_iff asciiFmt plain_started fresh).mp kept

/-- With the mode on this line leaves the terminal bold and white, with the mode off
it has escapes in it. -/
theorem started_colours : started.Plain ∧ ¬ ColourDiscipline asciiFmt [.init true, started] ∧
    ¬ ColourDiscipline asciiFmt [.init false, started] :=
  ⟨plain_started, not_disciplined_started true, not_disciplined_started false⟩

/-- What `ESP_LOGI("wifi", "up")` formats. -/
def wifiUp : LogEvent := .espLog ⟨12, 0, 0⟩ "\x1b[0;32mI (4321) wifi: up\x1b[0m\n".toList

theorem plain_wifiUp : wifiUp.Plain := by
  intro call value reported
  have logged : vprintfOverride "\x1b[0;32mI (4321) wifi: up\x1b[0m\n".toList =
      .ok (some ⟨"wifi".toList, .info, "up".toList⟩, 29) := rfl
  rw [logged] at reported
  cases reported
  decide

/-- A record that comes through the hook with the mode on has its colours taken back. -/
theorem disciplined_wifiUp : ColourDiscipline asciiFmt [.init true, wifiUp] := by
  have plain : ∀ event ∈ [.init true, wifiUp], event.Plain := by
    simpa using ⟨trivial, plain_wifiUp⟩
  apply (colourDiscipline_iff asciiFmt [.init true, wifiUp] plain).mpr
  have first : EachAfter TakesBack ([] ++ [.init true]) :=
    eachAfter_concat.mpr ⟨eachAfter_nil _, trivial⟩
  have second : TakesBack [.init true] wifiUp := by
    intro ready marked
    rfl
  exact eachAfter_concat.mpr ⟨first, second⟩

end Motohs.Logging
