import Mathlib.Data.Rat.Defs

/-! An up-counting hardware timer with one alarm, as its driver presents it. A
call made before the timer is initialized fails and changes nothing. -/

namespace Lib

structure TickTimer (Callback : Type u) where
  initialized : Bool
  /-- Ticks per second while running. -/
  rate : Nat
  running : Bool
  counter : Nat
  alarmEnabled : Bool
  alarmValue : Nat
  intrEnabled : Bool
  callback : Option Callback
  deriving DecidableEq, Repr

namespace TickTimer

variable {Callback : Type u}

def call (timer : TickTimer Callback) (effect : TickTimer Callback → TickTimer Callback) :
    TickTimer Callback :=
  if timer.initialized then effect timer else timer

/-- Configure the timer. The counter register keeps what it held. -/
def init (rate : Nat) (running alarmEnabled : Bool) (timer : TickTimer Callback) :
    TickTimer Callback :=
  { timer with initialized := true, rate, running, alarmEnabled }

def setCounterValue (value : Nat) (timer : TickTimer Callback) : TickTimer Callback :=
  timer.call fun timer => { timer with counter := value }

def setAlarmValue (value : Nat) (timer : TickTimer Callback) : TickTimer Callback :=
  timer.call fun timer => { timer with alarmValue := value }

def setAlarm (enabled : Bool) (timer : TickTimer Callback) : TickTimer Callback :=
  timer.call fun timer => { timer with alarmEnabled := enabled }

def enableIntr (timer : TickTimer Callback) : TickTimer Callback :=
  timer.call fun timer => { timer with intrEnabled := true }

def isrCallbackAdd (callback : Callback) (timer : TickTimer Callback) : TickTimer Callback :=
  timer.call fun timer => { timer with callback := some callback }

def start (timer : TickTimer Callback) : TickTimer Callback :=
  timer.call fun timer => { timer with running := true }

def pause (timer : TickTimer Callback) : TickTimer Callback :=
  timer.call fun timer => { timer with running := false }

/-- Seconds on the counter, exactly. `none` when the driver refuses the call. -/
def counterTimeSec (timer : TickTimer Callback) : Option ℚ :=
  if timer.initialized then some (timer.counter / timer.rate) else none

/-- The counter passes the alarm value within the next ticks while the alarm is enabled. -/
def reachesAlarm (timer : TickTimer Callback) (ticks : Nat) : Bool :=
  timer.running && timer.alarmEnabled &&
    decide (timer.counter < timer.alarmValue ∧ timer.alarmValue ≤ timer.counter + ticks)

/-- With that tick from now the counter stands on the value of an enabled alarm. -/
def alarmDueAt (timer : TickTimer Callback) (tick : Nat) : Bool :=
  timer.running && timer.alarmEnabled &&
    decide (0 < tick ∧ timer.counter + tick = timer.alarmValue)

/-- The alarm interrupt becomes pending within the next ticks. -/
def raisesAlarm (timer : TickTimer Callback) (ticks : Nat) : Bool :=
  timer.intrEnabled && timer.reachesAlarm ticks

/-- Time passes. A running counter goes on past the alarm, which it disables. -/
def advance (ticks : Nat) (timer : TickTimer Callback) : TickTimer Callback :=
  { timer with
    counter := if timer.running then timer.counter + ticks else timer.counter
    alarmEnabled := timer.alarmEnabled && !timer.reachesAlarm ticks }

@[simp] theorem call_initialized {timer : TickTimer Callback} (ready : timer.initialized = true)
    (effect : TickTimer Callback → TickTimer Callback) : timer.call effect = effect timer := by
  simp [call, ready]

/-- What the three calls that start a timer over come to. -/
theorem restarted_eq {timer : TickTimer Callback} (ready : timer.initialized = true) :
    ((timer.setCounterValue 0).setAlarm true).start =
      { timer with counter := 0, alarmEnabled := true, running := true } := by
  simp [setCounterValue, setAlarm, start, call, ready]

/-- A call that leaves a field alone when it succeeds leaves it alone. -/
theorem call_keeps {effect : TickTimer Callback → TickTimer Callback} (field : TickTimer Callback → Reading)
    (keeps : ∀ timer, field (effect timer) = field timer) (timer : TickTimer Callback) :
    field (timer.call effect) = field timer := by
  unfold call
  split
  · exact keeps timer
  · rfl

/-- An advance reaches the alarm when one of its ticks does. -/
theorem reachesAlarm_iff (timer : TickTimer Callback) (ticks : Nat) :
    timer.reachesAlarm ticks = true ↔ ∃ tick ≤ ticks, timer.alarmDueAt tick = true := by
  simp only [reachesAlarm, alarmDueAt, Bool.and_eq_true, decide_eq_true_eq]
  constructor
  · intro ⟨enabled, above, within⟩
    refine ⟨timer.alarmValue - timer.counter, ?_, enabled, ?_⟩ <;> omega
  · intro ⟨tick, within, enabled, positive, value⟩
    refine ⟨enabled, ?_, ?_⟩ <;> omega

section Initialized

variable (timer : TickTimer Callback)

@[simp] theorem setCounterValue_initialized :
    (timer.setCounterValue value).initialized = timer.initialized :=
  call_keeps initialized (by intro; rfl) timer

@[simp] theorem setAlarmValue_initialized :
    (timer.setAlarmValue value).initialized = timer.initialized :=
  call_keeps initialized (by intro; rfl) timer

@[simp] theorem setAlarm_initialized : (timer.setAlarm enabled).initialized = timer.initialized :=
  call_keeps initialized (by intro; rfl) timer

@[simp] theorem enableIntr_initialized : timer.enableIntr.initialized = timer.initialized :=
  call_keeps initialized (by intro; rfl) timer

@[simp] theorem isrCallbackAdd_initialized {callback : Callback} :
    (timer.isrCallbackAdd callback).initialized = timer.initialized :=
  call_keeps initialized (by intro; rfl) timer

@[simp] theorem start_initialized : timer.start.initialized = timer.initialized :=
  call_keeps initialized (by intro; rfl) timer

@[simp] theorem pause_initialized : timer.pause.initialized = timer.initialized :=
  call_keeps initialized (by intro; rfl) timer

end Initialized

section Callback

variable (timer : TickTimer Callback)

@[simp] theorem setCounterValue_callback : (timer.setCounterValue value).callback = timer.callback :=
  call_keeps TickTimer.callback (by intro; rfl) timer

@[simp] theorem setAlarm_callback : (timer.setAlarm enabled).callback = timer.callback :=
  call_keeps TickTimer.callback (by intro; rfl) timer

@[simp] theorem start_callback : timer.start.callback = timer.callback :=
  call_keeps TickTimer.callback (by intro; rfl) timer

@[simp] theorem pause_callback : timer.pause.callback = timer.callback :=
  call_keeps TickTimer.callback (by intro; rfl) timer

end Callback

end TickTimer

end Lib
