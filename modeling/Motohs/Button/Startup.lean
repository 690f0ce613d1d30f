import Mathlib.Tactic.IntervalCases
import Motohs.Lib.Machine
import Motohs.Button.Handler

/-! Start-up: `Init` registers the pin handler before it configures the timers, so
pin interrupts land between its remaining calls. -/

namespace Motohs.Button

open Lib

inductive StartupStep where
  /-- The next call of `Init`. -/
  | init
  | press
  | release
  /-- The interrupt of one timer, for which a callback must be registered. -/
  | alarm (index : TimerIdx)
  | ticks (count : Nat)
  deriving DecidableEq, Repr

def StartupStep.elapsed : StartupStep → Nat
  | .ticks count => count
  | .init | .press | .release | .alarm _ => 0

def elapsedOver (steps : List StartupStep) : Nat := (steps.map StartupStep.elapsed).sum

structure Startup where
  board : Board
  remaining : List InitCall

namespace Startup

def start (systemTask : Address) (board : Board) : Startup :=
  ⟨board, initCalls board.handler.buttonGpio systemTask⟩

/-- Pin interrupts are delivered from the moment the handler is registered. -/
def step : Machine Startup StartupStep
  | startup, .init =>
    match startup.remaining with
    | [] => none
    | call :: rest => some ⟨call.exec startup.board, rest⟩
  | startup, .press =>
    if startup.board.gpio.isrHandler then
      some { startup with board := (startup.board.buttonPinInterrupt false).1 }
    else none
  | startup, .release =>
    if startup.board.gpio.isrHandler then
      some { startup with board := (startup.board.buttonPinInterrupt true).1 }
    else none
  | startup, .alarm index =>
    (startup.board.timer index).callback.map fun callback =>
      { startup with board := (startup.board.runCallback callback).1 }
  | startup, .ticks count => some { startup with board := startup.board.advance count }

end Startup

/-- Both timers run and `TIMER_0` shows the given number of ticks. -/
structure TimedRight (board : Board) (ticks : Nat) : Prop where
  running0 : board.timer0.running = true
  running1 : board.timer1.running = true
  counter0 : board.timer0.counter = ticks

/-- The latest pin event of the history is a Press with `since` after it. -/
structure PressedSince (past before since : List StartupStep) : Prop where
  split : past = before ++ .press :: since
  noPress : .press ∉ since
  noRelease : .release ∉ since

/-- Whenever `Init` is through and the latest pin event is a Press, the timers
have been running since that Press. -/
def NoPressMistimed (systemTask : Address) (board : Board) (steps : List StartupStep) : Prop :=
  Startup.step.Along (.start systemTask board) (fun past startup => startup.remaining = [] →
    ∀ before since, PressedSince past before since → TimedRight startup.board (elapsedOver since)) steps

/-- The calls of `Init` made over a history. -/
def executed (calls : List InitCall) (past : List StartupStep) : List InitCall :=
  calls.take (past.count .init)

/-- The Press came once both timers were initialized, and no tick passed between
it and the clearing of the `TIMER_0` counter unless that was done already. -/
def LandsClean (calls : List InitCall) (before since : List StartupStep) : Prop :=
  .timerSetCounterValue .timer0 0 ∈ executed calls before ∨
    .timerInit .timer1 timerConfig ∈ executed calls before ∧
      elapsedOver (since.takeWhile (· ≠ .init)) = 0

def StartsClean (systemTask : Address) (board : Board) (steps : List StartupStep) : Prop :=
  Startup.step.Along (.start systemTask board) (fun past startup => startup.remaining = [] →
    ∀ before since, PressedSince past before since →
      LandsClean (initCalls board.handler.buttonGpio systemTask) before since) steps

theorem executed_counter (count : Nat) :
    .timerSetCounterValue .timer0 0 ∈ (initCalls buttonGpio systemTask).take count ↔ 8 ≤ count := by
  rcases Nat.lt_or_ge count 8 with early | late
  · interval_cases count <;> simp [initCalls, initHwTimers]
  · obtain ⟨rest, rfl⟩ := Nat.exists_eq_add_of_le' late
    simp [initCalls, initHwTimers]

theorem executed_timer1 (count : Nat) :
    .timerInit .timer1 timerConfig ∈ (initCalls buttonGpio systemTask).take count ↔ 7 ≤ count := by
  rcases Nat.lt_or_ge count 7 with early | late
  · interval_cases count <;> simp [initCalls, initHwTimers]
  · obtain ⟨rest, rfl⟩ := Nat.exists_eq_add_of_le' late
    simp [initCalls, initHwTimers]

theorem step_init : Startup.step startup .init = some next ↔
    ∃ call rest, startup.remaining = call :: rest ∧ next = ⟨call.exec startup.board, rest⟩ := by
  obtain ⟨board, remaining⟩ := startup
  cases remaining <;> simp [Startup.step, eq_comm]

theorem startup_press : Startup.step startup .press = some next ↔
    startup.board.gpio.isrHandler = true ∧
      next = { startup with board := startup.board.startTimer.startEmergencyTimer } := by
  cases delivered : startup.board.gpio.isrHandler <;>
    simp [Startup.step, delivered, Board.buttonPinInterrupt, Board.handleInterrupt, eq_comm]

theorem startup_release : Startup.step startup .release = some next ↔
    startup.board.gpio.isrHandler = true ∧
      next = { startup with board := startup.board.stopTimer.stopEmergencyTimer } := by
  cases delivered : startup.board.gpio.isrHandler <;>
    simp [Startup.step, delivered, Board.buttonPinInterrupt, Board.handleInterrupt, eq_comm]

/-- Neither callback touches the board. -/
theorem startup_alarm (step : Startup.step startup (.alarm index) = some next) : next = startup := by
  obtain ⟨callback, _, rfl⟩ := Option.map_eq_some_iff.mp step
  cases callback <;> rfl

theorem startup_ticks : Startup.step startup (.ticks count) = some next ↔
    next = { startup with board := startup.board.advance count } := by
  simp [Startup.step, eq_comm]

theorem exec_initialized (call : InitCall) (board : Board) (index : TimerIdx)
    (ready : (board.timer index).initialized = true) :
    ((call.exec board).timer index).initialized = true := by
  cases call with
  | setSystemTask _ | gpioConfig _ | gpioSetIntrType _ | gpioInstallIsrService | gpioIsrHandlerAdd =>
    cases index <;> exact ready
  | timerInit other _ | timerSetCounterValue other _ | timerSetAlarmValue other _
    | timerEnableIntr other | timerIsrCallbackAdd other _ =>
    cases other <;> cases index <;>
      simp_all [InitCall.exec, Board.timerInit, Board.timerSetCounterValue, Board.timerSetAlarmValue,
        Board.timerEnableIntr, Board.timerIsrCallbackAdd, Board.onTimer, Board.timer, TickTimer.init]

/-- A timer whose `timer_init` is no longer among the remaining calls is initialized. -/
def Prepared (startup : Startup) : Prop :=
  ∀ index, .timerInit index timerConfig ∈ startup.remaining ∨
    (startup.board.timer index).initialized = true

theorem Prepared.step (prepared : Prepared startup)
    (step : Startup.step startup event = some next) : Prepared next := by
  intro index
  cases event with
  | init =>
    obtain ⟨call, rest, remaining, rfl⟩ := step_init.mp step
    rcases prepared index with waiting | ready
    · rw [remaining] at waiting
      rcases List.mem_cons.mp waiting with now | later
      · subst now
        cases index <;> exact .inr rfl
      · exact .inl later
    · exact .inr (exec_initialized call _ index ready)
  | press =>
    obtain ⟨_, rfl⟩ := startup_press.mp step
    simpa [Board.timer_pressed] using prepared index
  | release =>
    obtain ⟨_, rfl⟩ := startup_release.mp step
    simpa [Board.timer_released] using prepared index
  | alarm other => exact startup_alarm step ▸ prepared index
  | ticks count =>
    obtain rfl := startup_ticks.mp step
    have same := prepared index
    cases index <;> exact same

theorem prepared_run (ran : Startup.step.run (.start systemTask board) past = some startup) :
    Prepared startup := by
  refine Machine.run_invariant (motive := fun _ startup => Prepared startup) ?_ ?_ ran
  · intro index
    cases index <;> exact .inl (by simp [Startup.start, initCalls, initHwTimers])
  · intro _ _ _ _ prepared step
    exact prepared.step step

theorem remaining_run (ran : Startup.step.run (.start systemTask board) past = some startup) :
    startup.remaining = (initCalls board.handler.buttonGpio systemTask).drop (past.count .init) := by
  refine Machine.run_invariant (motive := fun past startup => startup.remaining =
    (initCalls board.handler.buttonGpio systemTask).drop (past.count .init)) rfl ?_ ran
  intro past startup event next same step
  cases event with
  | init =>
    obtain ⟨call, rest, remaining, rfl⟩ := step_init.mp step
    rw [List.count_append, List.count_singleton_self, ← List.drop_drop, ← same, remaining]
    rfl
  | press => simpa [(startup_press.mp step).2] using same
  | release => simpa [(startup_release.mp step).2] using same
  | alarm other => simpa [startup_alarm step] using same
  | ticks count => simpa [startup_ticks.mp step] using same

/-- The call leaves alone what `TimedRight` looks at. -/
def SparesTimers (call : InitCall) : Prop :=
  ∀ board ticks, TimedRight board ticks → TimedRight (call.exec board) ticks

/-- Every call of `Init` after the clearing of the `TIMER_0` counter spares the timers. -/
theorem sparesTimers_drop (buttonGpio : Nat) (systemTask : Address)
    (member : call ∈ (initCalls buttonGpio systemTask).drop 8) : SparesTimers call := by
  have running {effect : HwTimer → HwTimer} (timer : HwTimer)
      (keeps : ∀ timer, (effect timer).running = timer.running) :
      (timer.call effect).running = timer.running := TickTimer.call_keeps _ keeps timer
  have counter {effect : HwTimer → HwTimer} (timer : HwTimer)
      (keeps : ∀ timer, (effect timer).counter = timer.counter) :
      (timer.call effect).counter = timer.counter := TickTimer.call_keeps _ keeps timer
  intro board ticks timed
  simp only [initCalls, initHwTimers, List.cons_append, List.nil_append, List.drop_succ_cons,
    List.drop_zero, List.mem_cons, List.not_mem_nil, or_false] at member
  rcases member with rfl | rfl | rfl | rfl | rfl | rfl | rfl <;>
  · constructor
    · first
        | exact timed.running0
        | exact (running _ (by intro; rfl)).trans timed.running0
    · first
        | exact timed.running1
        | exact (running _ (by intro; rfl)).trans timed.running1
    · first
        | exact timed.counter0
        | exact (counter _ (by intro; rfl)).trans timed.counter0

theorem timedRight_advance (timed : TimedRight board ticks) (count : Nat) :
    TimedRight (board.advance count) (ticks + count) where
  running0 := timed.running0
  running1 := timed.running1
  counter0 := by simp [Board.advance, TickTimer.advance, timed.running0, timed.counter0]

/-- A Press on initialized timers starts both from zero. -/
theorem timedRight_press (board : Board) (ready0 : board.timer0.initialized = true)
    (ready1 : board.timer1.initialized = true) :
    TimedRight board.startTimer.startEmergencyTimer 0 := by
  have timer0 := (board.timer_pressed .timer0).trans (TickTimer.restarted_eq ready0)
  have timer1 := (board.timer_pressed .timer1).trans (TickTimer.restarted_eq ready1)
  exact ⟨congrArg TickTimer.running timer0, congrArg TickTimer.running timer1,
    congrArg TickTimer.counter timer0⟩

/-- With only sparing calls left, the timers go on counting from the latest Press. -/
theorem timedRight_since (ran : Startup.step.run startup since = some final)
    (timed : TimedRight startup.board ticks)
    (spared : ∀ call ∈ startup.remaining, SparesTimers call)
    (noPress : .press ∉ since) (noRelease : .release ∉ since) :
    TimedRight final.board (ticks + elapsedOver since) := by
  induction since generalizing startup ticks with
  | nil =>
    obtain rfl := Option.some.inj ran
    exact timed
  | cons event rest ih =>
    simp only [List.mem_cons, not_or] at noPress noRelease
    obtain ⟨next, step, later⟩ := Machine.run_cons_eq_some.mp ran
    have total : ticks + elapsedOver (event :: rest) = ticks + event.elapsed + elapsedOver rest := by
      simp [elapsedOver, Nat.add_assoc]
    rw [total]
    cases event with
    | init =>
      obtain ⟨call, calls, remaining, rfl⟩ := step_init.mp step
      have spares := spared call (by simp [remaining])
      exact ih later (spares _ _ timed)
        (fun other member => spared other (by simp [remaining, member])) noPress.2 noRelease.2
    | press => exact absurd rfl noPress.1
    | release => exact absurd rfl noRelease.1
    | alarm index =>
      obtain rfl := startup_alarm step
      exact ih later timed spared noPress.2 noRelease.2
    | ticks count =>
      obtain rfl := startup_ticks.mp step
      exact ih later (timedRight_advance timed count) spared noPress.2 noRelease.2

/-- A Press between the last `timer_init` and the clearing of the counter: the
ticks until the clearing are lost. -/
theorem timedRight_cleared (ran : Startup.step.run startup since = some final)
    (complete : final.remaining = []) (timed : TimedRight startup.board ticks)
    (ready : startup.board.timer0.initialized = true)
    (remaining : startup.remaining = .timerSetCounterValue .timer0 0 :: calls)
    (spared : ∀ call ∈ calls, SparesTimers call)
    (noPress : .press ∉ since) (noRelease : .release ∉ since) :
    ∃ shown, TimedRight final.board shown ∧
      shown + elapsedOver (since.takeWhile (· ≠ .init)) = elapsedOver since := by
  induction since generalizing startup ticks with
  | nil =>
    obtain rfl := Option.some.inj ran
    simp [remaining] at complete
  | cons event rest ih =>
    simp only [List.mem_cons, not_or] at noPress noRelease
    obtain ⟨next, step, later⟩ := Machine.run_cons_eq_some.mp ran
    cases event with
    | init =>
      obtain ⟨call, others, same, rfl⟩ := step_init.mp step
      obtain ⟨rfl, rfl⟩ := List.cons.inj (remaining.symm.trans same)
      have cleared : TimedRight (startup.board.timerSetCounterValue .timer0 0) 0 := by
        constructor <;>
          simp [Board.timerSetCounterValue, Board.onTimer, TickTimer.setCounterValue, ready,
            timed.running0, timed.running1]
      have shown := timedRight_since later cleared spared noPress.2 noRelease.2
      exact ⟨_, shown, by simp [elapsedOver, StartupStep.elapsed]⟩
    | press => exact absurd rfl noPress.1
    | release => exact absurd rfl noRelease.1
    | alarm index =>
      obtain rfl := startup_alarm step
      obtain ⟨shown, right, sum⟩ := ih later timed ready remaining noPress.2 noRelease.2
      exact ⟨shown, right, by simpa [elapsedOver, StartupStep.elapsed] using sum⟩
    | ticks count =>
      obtain rfl := startup_ticks.mp step
      obtain ⟨shown, right, sum⟩ :=
        ih later (timedRight_advance timed count) ready remaining noPress.2 noRelease.2
      refine ⟨shown, right, ?_⟩
      simp [elapsedOver, StartupStep.elapsed] at sum ⊢
      omega

/-- The only call that could set a timer running is a `timer_init` that asks for it. -/
def NeverStarts : InitCall → Prop
  | .timerInit _ config => config.counterEn = false
  | _ => True

theorem neverStarts_initCalls (member : call ∈ initCalls buttonGpio systemTask) :
    NeverStarts call := by
  simp only [initCalls, initHwTimers, List.cons_append, List.nil_append, List.mem_cons,
    List.not_mem_nil, or_false] at member
  rcases member with rfl | rfl | rfl | rfl | rfl | rfl | rfl | rfl | rfl | rfl | rfl | rfl | rfl |
    rfl | rfl <;> trivial

theorem NeverStarts.exec (never : NeverStarts call) (board : Board)
    (stopped : board.timer1.running = false) : (call.exec board).timer1.running = false := by
  have keeps {effect : HwTimer → HwTimer} (same : ∀ timer, (effect timer).running = timer.running) :
      (board.timer1.call effect).running = false :=
    (TickTimer.call_keeps TickTimer.running same _).trans stopped
  cases call with
  | setSystemTask _ | gpioConfig _ | gpioSetIntrType _ | gpioInstallIsrService | gpioIsrHandlerAdd =>
    exact stopped
  | timerInit index config =>
    cases index with
    | timer0 => exact stopped
    | timer1 => exact never
  | timerSetCounterValue index _ | timerSetAlarmValue index _ | timerEnableIntr index
    | timerIsrCallbackAdd index _ =>
    cases index with
    | timer0 => exact stopped
    | timer1 => exact keeps (by intro; rfl)

/-- `timer_init` stops a timer that an early Press had started, and nothing but
another Press starts it again. -/
theorem stopped_since (ran : Startup.step.run startup since = some final)
    (stopped : .timerInit .timer1 timerConfig ∈ startup.remaining ∨
      startup.board.timer1.running = false)
    (known : ∀ call ∈ startup.remaining, NeverStarts call)
    (noPress : .press ∉ since) :
    .timerInit .timer1 timerConfig ∈ final.remaining ∨ final.board.timer1.running = false := by
  induction since generalizing startup with
  | nil =>
    obtain rfl := Option.some.inj ran
    exact stopped
  | cons event rest ih =>
    simp only [List.mem_cons, not_or] at noPress
    obtain ⟨next, step, later⟩ := Machine.run_cons_eq_some.mp ran
    cases event with
    | init =>
      obtain ⟨call, calls, remaining, rfl⟩ := step_init.mp step
      rw [remaining] at stopped known
      refine ih later ?_ (fun other member => known other (List.mem_cons_of_mem _ member)) noPress.2
      rcases stopped with waiting | still
      · rcases List.mem_cons.mp waiting with now | later
        · subst now
          exact .inr rfl
        · exact .inl later
      · exact .inr ((known call List.mem_cons_self).exec _ still)
    | press => exact absurd rfl noPress.1
    | release =>
      obtain ⟨_, rfl⟩ := startup_release.mp step
      refine ih later ?_ known noPress.2
      refine stopped.imp_right fun still => ?_
      change (startup.board.timer1.pause).running = false
      unfold TickTimer.pause TickTimer.call
      split
      · rfl
      · exact still
    | alarm index =>
      obtain rfl := startup_alarm step
      exact ih later stopped known noPress.2
    | ticks count =>
      obtain rfl := startup_ticks.mp step
      exact ih later stopped known noPress.2

/-- After seven calls of `Init` both timers are initialized. -/
theorem Prepared.initialized (prepared : Prepared startup)
    (remaining : startup.remaining = (initCalls buttonGpio systemTask).drop count)
    (late : 7 ≤ count) (index : TimerIdx) : (startup.board.timer index).initialized = true := by
  refine (prepared index).resolve_left fun waiting => ?_
  obtain ⟨more, rfl⟩ := Nat.exists_eq_add_of_le late
  rw [remaining, ← List.drop_drop] at waiting
  have tail := List.mem_of_mem_drop waiting
  cases index <;> simp [initCalls, initHwTimers] at tail

theorem startTimers_initialized (board : Board) :
    board.startTimer.startEmergencyTimer.timer0.initialized = board.timer0.initialized := by
  change (board.startTimer.startEmergencyTimer.timer .timer0).initialized = _
  rw [Board.timer_pressed, TickTimer.start_initialized, TickTimer.setAlarm_initialized,
    TickTimer.setCounterValue_initialized]
  rfl

/-- Once `Init` is through, the timers show the time since the latest Press just
when that Press landed clean. -/
theorem timedRight_iff_landsClean (pressed : PressedSince past before since)
    (ran : Startup.step.run (.start systemTask board) past = some final)
    (complete : final.remaining = []) :
    TimedRight final.board (elapsedOver since) ↔
      LandsClean (initCalls board.handler.buttonGpio systemTask) before since := by
  obtain ⟨rfl, noPress, noRelease⟩ := pressed
  obtain ⟨startup, early, late⟩ := Machine.run_append_eq_some.mp ran
  obtain ⟨landed, step, later⟩ := Machine.run_cons_eq_some.mp late
  obtain ⟨_, rfl⟩ := startup_press.mp step
  have prepared := prepared_run early
  have remaining := remaining_run early
  rw [LandsClean, executed, executed_counter, executed_timer1]
  generalize before.count .init = count at remaining
  -- The split is by how many calls of `Init` the Press finds done: 7 means that
  -- the clearing of the counter comes next.
  rcases Nat.lt_trichotomy count 7 with unready | ready | cleared
  · have waiting : .timerInit .timer1 timerConfig ∈ startup.remaining := by
      rw [remaining]
      interval_cases count <;> simp [initCalls, initHwTimers]
    have known : ∀ call ∈ startup.remaining, NeverStarts call := by
      intro call member
      rw [remaining] at member
      exact neverStarts_initCalls (List.mem_of_mem_drop member)
    constructor
    · intro timed
      rcases stopped_since later (.inl waiting) known noPress with still | stopped
      · simp [complete] at still
      · simp [timed.running1] at stopped
    · intro clean
      omega
  · subst ready
    have initialized := prepared.initialized remaining (Nat.le_refl 7)
    have fresh := timedRight_press startup.board (initialized .timer0) (initialized .timer1)
    obtain ⟨shown, right, sum⟩ := timedRight_cleared later complete fresh
      ((startTimers_initialized startup.board).trans (initialized .timer0)) remaining
      (fun call member => sparesTimers_drop board.handler.buttonGpio systemTask member) noPress noRelease
    constructor
    · intro timed
      have same := right.counter0.symm.trans timed.counter0
      exact .inr ⟨Nat.le_refl _, by omega⟩
    · rintro (clean | ⟨_, clean⟩)
      · omega
      · have same : shown = elapsedOver since := by omega
        exact same ▸ right
  · have spared : ∀ call ∈ startup.remaining, SparesTimers call := by
      intro call member
      obtain ⟨more, rfl⟩ := Nat.exists_eq_add_of_le cleared
      rw [remaining, ← List.drop_drop] at member
      exact sparesTimers_drop _ _ (List.mem_of_mem_drop member)
    have initialized := prepared.initialized remaining (Nat.le_of_lt cleared)
    have fresh := timedRight_press startup.board (initialized .timer0) (initialized .timer1)
    have timed := timedRight_since later fresh spared noPress noRelease
    rw [Nat.zero_add] at timed
    exact iff_of_true timed (.inl cleared)

/-- No press of a run is mistimed just when every Press that `Init` ends on landed
clean: after both `timer_init` calls, and with no tick lost to the clearing of the
counter. -/
theorem noPressMistimed_iff (systemTask : Address) (board : Board) (steps : List StartupStep) :
    NoPressMistimed systemTask board steps ↔ StartsClean systemTask board steps := by
  constructor
  · intro timed past rest final same ran complete before since pressed
    have right := timed past rest final same ran complete before since pressed
    exact (timedRight_iff_landsClean pressed ran complete).mp right
  · intro clean past rest final same ran complete before since pressed
    have landed := clean past rest final same ran complete before since pressed
    exact (timedRight_iff_landsClean pressed ran complete).mpr landed

/-- A Press as soon as the pin handler is registered: its calls to the timers fail,
and `Init` ends with both timers at rest while the button is down. -/
theorem early_press_mistimed :
    ¬ NoPressMistimed 1 (.powerOn 0) (List.replicate 5 .init ++ .press :: List.replicate 10 .init) := by
  intro timed
  have stopped : (Startup.step.run (.start 1 (.powerOn 0))
      (List.replicate 5 .init ++ .press :: List.replicate 10 .init)).map
        (fun startup => (startup.remaining, startup.board.timer0.running)) = some ([], false) := rfl
  obtain ⟨final, ran, same⟩ := Option.map_eq_some_iff.mp stopped
  obtain ⟨complete, running⟩ := Prod.mk.inj same
  have right := timed _ [] final (List.append_nil _).symm ran complete _ _ ⟨rfl, by decide, by decide⟩
  have started := right.running0
  simp [running] at started

end Motohs.Button
