import Mathlib.Tactic.Linarith
import Mathlib.Tactic.FieldSimp
import Mathlib.Data.Rat.Cast.Order
import Motohs.Lib.Machine
import Motohs.Button.Handler

/-! What the two timers are for: a stopwatch over the pin events. The board that
`Init` leaves follows the stopwatch through every event, in any order. -/

namespace Motohs.Button

open Lib

/-- What may happen once `Init` has run: an event handed to `HandleInterrupt`, or time. -/
inductive Input where
  | event (event : Events)
  | ticks (count : Nat)
  deriving DecidableEq, Repr

abbrev Input.press : Input := .event .press

abbrev Input.release : Input := .event .release

def Input.elapsed : Input → Nat
  | .event _ => 0
  | .ticks count => count

/-- The ticks that pass over a stretch of inputs. -/
def ticksOf (inputs : List Input) : Nat := (inputs.map Input.elapsed).sum

namespace Board

def step (board : Board) : Input → Board
  | .event event => (board.handleInterrupt event).1
  | .ticks count => board.advance count

/-- The call to `PushMessage` made while the input is handled, if any. -/
def pushed (board : Board) : Input → Option PushCall
  | .event event => (board.handleInterrupt event).2
  | .ticks _ => none

def after (board : Board) (inputs : List Input) : Board := inputs.foldl step board

theorem after_append (board : Board) (first second : List Input) :
    board.after (first ++ second) = (board.after first).after second :=
  List.foldl_append

end Board

/-- The button as its owner sees it: down or not, and how long the latest hold
has lasted, or had lasted when the button was let go. -/
structure Hold where
  down : Bool
  ticks : Nat
  deriving DecidableEq, Repr

namespace Hold

def idle : Hold := ⟨false, 0⟩

def step (hold : Hold) : Input → Hold
  | .event .press => ⟨true, 0⟩
  | .event .release => ⟨false, hold.ticks⟩
  | .event .timer | .event .emergencyTimer => hold
  | .ticks count => ⟨hold.down, if hold.down then hold.ticks + count else hold.ticks⟩

def after (hold : Hold) (inputs : List Input) : Hold := inputs.foldl step hold

theorem after_append (hold : Hold) (first second : List Input) :
    hold.after (first ++ second) = (hold.after first).after second :=
  List.foldl_append

theorem after_cons (hold : Hold) (input : Input) (rest : List Input) :
    hold.after (input :: rest) = (hold.step input).after rest := rfl

/-- Between a Press and the next pin event the stopwatch counts every tick. -/
theorem after_held (held : List Input) (noPress : .press ∉ held) (noRelease : .release ∉ held)
    (ticks : Nat) : Hold.after ⟨true, ticks⟩ held = ⟨true, ticks + ticksOf held⟩ := by
  induction held generalizing ticks with
  | nil => rfl
  | cons input rest ih =>
    simp only [List.mem_cons, not_or] at noPress noRelease
    have step : Hold.step ⟨true, ticks⟩ input = ⟨true, ticks + input.elapsed⟩ := by
      cases input with
      | ticks count => rfl
      | event event => cases event <;> simp_all [Hold.step, Input.elapsed]
    rw [after_cons, step, ih noPress.2 noRelease.2, ticksOf, ticksOf, List.map_cons,
      List.sum_cons, Nat.add_assoc]

/-- A stopped stopwatch shows the same hold until the next Press. -/
theorem after_idle (idle : List Input) (noPress : .press ∉ idle) (ticks : Nat) :
    Hold.after ⟨false, ticks⟩ idle = ⟨false, ticks⟩ := by
  induction idle with
  | nil => rfl
  | cons input rest ih =>
    simp only [List.mem_cons, not_or] at noPress
    have step : Hold.step ⟨false, ticks⟩ input = ⟨false, ticks⟩ := by
      cases input with
      | ticks count => rfl
      | event event => cases event <;> simp_all [Hold.step]
    rw [after_cons, step, ih noPress.2]

end Hold

/-- The hold that a history ends with, read off the history: the latest Press,
and the first Release after it if there is one. -/
inductive LatestHold : List Input → Hold → Prop where
  | never (noPress : .press ∉ past) : LatestHold past .idle
  | down (noPress : .press ∉ held) (noRelease : .release ∉ held) :
      LatestHold (before ++ .press :: held) ⟨true, ticksOf held⟩
  | up (noPress : .press ∉ held) (noRelease : .release ∉ held) (idleNoPress : .press ∉ idle) :
      LatestHold (before ++ .press :: held ++ .release :: idle) ⟨false, ticksOf held⟩

theorem LatestHold.step (latest : LatestHold past hold) (input : Input) :
    LatestHold (past ++ [input]) (hold.step input) := by
  by_cases press : input = .press
  · subst press
    change LatestHold (past ++ .press :: []) ⟨true, ticksOf []⟩
    exact .down (by simp) (by simp)
  · cases latest with
    | never noPress =>
      have idle := Hold.after_idle [input] (by simpa using Ne.symm press) 0
      change LatestHold _ (Hold.after ⟨false, 0⟩ [input])
      rw [idle]
      exact .never (by simp [noPress, Ne.symm press])
    | @down held before noPress noRelease =>
      by_cases release : input = .release
      · subst release
        change LatestHold (before ++ .press :: held ++ .release :: []) ⟨false, ticksOf held⟩
        exact .up noPress noRelease (by simp)
      · have counted := Hold.after_held [input] (by simpa using Ne.symm press)
          (by simpa using Ne.symm release) (ticksOf held)
        have longer : LatestHold (before ++ .press :: (held ++ [input])) ⟨true, ticksOf (held ++ [input])⟩ :=
          .down (by simp [noPress, Ne.symm press]) (by simp [noRelease, Ne.symm release])
        change LatestHold _ (Hold.after ⟨true, ticksOf held⟩ [input])
        rw [counted]
        simpa [ticksOf] using longer
    | @up held idle before noPress noRelease idleNoPress =>
      have same := Hold.after_idle [input] (by simpa using Ne.symm press) (ticksOf held)
      have longer : LatestHold (before ++ .press :: held ++ .release :: (idle ++ [input])) ⟨false, ticksOf held⟩ :=
        .up noPress noRelease (by simp [idleNoPress, Ne.symm press])
      change LatestHold _ (Hold.after ⟨false, ticksOf held⟩ [input])
      rw [same]
      simpa using longer

theorem latestHold_after (past : List Input) : LatestHold past (Hold.idle.after past) :=
  foldl_history (motive := LatestHold) (.never (by simp)) (fun _ _ input latest => latest.step input) past

/-- The stopwatch reads a history exactly as `LatestHold` does. -/
theorem LatestHold.unique (latest : LatestHold past hold) : Hold.idle.after past = hold := by
  cases latest with
  | never noPress => exact Hold.after_idle _ noPress 0
  | down noPress noRelease =>
    have counted := Hold.after_held _ noPress noRelease 0
    rw [Nat.zero_add] at counted
    rw [Hold.after_append, Hold.after_cons]
    exact counted
  | up noPress noRelease idleNoPress =>
    rw [Hold.after_append, Hold.after_append, Hold.after_cons, Hold.after_cons]
    change Hold.after (Hold.step (Hold.after ⟨true, 0⟩ _) .release) _ = _
    rw [Hold.after_held _ noPress noRelease 0, Nat.zero_add]
    exact Hold.after_idle _ idleNoPress _

/-- One timer shows the hold and is set to raise its alarm at the given value. -/
structure Follows (hold : Hold) (alarm : Nat) (routine : TimerCallback) (timer : HwTimer) : Prop where
  initialized : timer.initialized = true
  rate : timer.rate = timerScale
  running : timer.running = hold.down
  counter : timer.counter = hold.ticks
  alarmValue : timer.alarmValue = alarm
  intrEnabled : timer.intrEnabled = true
  callback : timer.callback = some routine

structure Tracks (systemTask : Address) (hold : Hold) (board : Board) : Prop where
  wired : board.handler.systemTask = some systemTask
  timer0 : Follows hold (2 * timerScale) .buttonTimerCallback board.timer0
  timer1 : Follows hold (10 * timerScale) .buttonEmergencyTimerCallback board.timer1

theorem Follows.restart (follows : Follows hold alarm routine timer) :
    Follows ⟨true, 0⟩ alarm routine (((timer.setCounterValue 0).setAlarm true).start) := by
  rw [TickTimer.restarted_eq follows.initialized]
  exact ⟨follows.initialized, follows.rate, rfl, rfl, follows.alarmValue, follows.intrEnabled,
    follows.callback⟩

theorem Follows.pause (follows : Follows hold alarm routine timer) :
    Follows ⟨false, hold.ticks⟩ alarm routine timer.pause := by
  have ready := follows.initialized
  constructor <;>
    simp [TickTimer.pause, ready, follows.rate, follows.alarmValue, follows.intrEnabled,
      follows.callback, follows.counter]

theorem Follows.advance (follows : Follows hold alarm routine timer) (count : Nat) :
    Follows (hold.step (.ticks count)) alarm routine (timer.advance count) := by
  constructor <;>
    simp [TickTimer.advance, Hold.step, follows.initialized, follows.rate, follows.running,
      follows.counter, follows.alarmValue, follows.intrEnabled, follows.callback]

/-- `Init` leaves both timers at rest on zero, whatever the registers held before. -/
theorem tracks_init (systemTask : Address) (board : Board) :
    Tracks systemTask .idle (board.init systemTask) := by
  constructor
  · rfl
  · constructor <;> rfl
  · constructor <;> rfl

theorem Tracks.step (tracks : Tracks systemTask hold board) (input : Input) :
    Tracks systemTask (hold.step input) (board.step input) := by
  cases input with
  | ticks count => exact ⟨tracks.wired, tracks.timer0.advance count, tracks.timer1.advance count⟩
  | event event =>
    cases event with
    | press => exact ⟨tracks.wired, tracks.timer0.restart, tracks.timer1.restart⟩
    | release => exact ⟨tracks.wired, tracks.timer0.pause, tracks.timer1.pause⟩
    | timer => exact tracks
    | emergencyTimer => exact tracks

theorem Tracks.after (tracks : Tracks systemTask hold board) (inputs : List Input) :
    Tracks systemTask (hold.after inputs) (board.after inputs) := by
  induction inputs generalizing hold board with
  | nil => exact tracks
  | cons input rest ih => exact ih (tracks.step input)

/-- The click for a hold of so many ticks, in ticks. -/
def clickFor (ticks : Nat) : Option ButtonActions :=
  if ticks < 2 * timerScale then some .shortClick
  else if 2 * timerScale < ticks then some .longClick
  else none

theorem clickOf_ticks (ticks : Nat) : Board.clickOf (ticks / timerScale) = clickFor ticks := by
  have below : (ticks / timerScale : ℚ) < 2 ↔ ticks < 2 * timerScale := by
    rw [div_lt_iff₀ (by norm_num [timerScale, timerBaseClk, timerDivider])]
    exact_mod_cast Iff.rfl
  have above : (ticks / timerScale : ℚ) > 2 ↔ 2 * timerScale < ticks := by
    rw [gt_iff_lt, lt_div_iff₀ (by norm_num [timerScale, timerBaseClk, timerDivider])]
    exact_mod_cast Iff.rfl
  simp only [Board.clickOf, clickFor, below, above]

/-- What a Release pushes depends on the hold it ends and on nothing else. -/
theorem Tracks.pushed_release (tracks : Tracks systemTask hold board) :
    board.pushed .release = (clickFor hold.ticks).map (⟨some systemTask, .buttonEvent, ·⟩) := by
  have stopped := tracks.timer0.pause
  have value : (board.stopTimer.stopEmergencyTimer).timerGetCounterTimeSec .timer0 0 =
      hold.ticks / timerScale := by
    change (TickTimer.counterTimeSec board.timer0.pause).getD 0 = _
    simp [TickTimer.counterTimeSec, tracks.timer0.initialized, stopped.counter, stopped.rate]
  change (Board.clickOf _).map _ = _
  rw [value, clickOf_ticks]
  congr 1
  funext action
  change PushCall.mk board.handler.systemTask _ _ = _
  rw [tracks.wired]

theorem Tracks.pushed_timer (tracks : Tracks systemTask hold board) :
    board.pushed (.event .timer) = some ⟨some systemTask, .buttonEvent, .longPress⟩ := by
  simp [Board.pushed, Board.handleInterrupt, Board.pushMessage, tracks.wired]

end Motohs.Button
