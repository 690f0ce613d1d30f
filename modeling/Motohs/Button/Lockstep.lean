import Motohs.Button.Hold

/-! The two timers side by side. They start and stop together, so both show the
current hold, and the alarm at ten seconds has the one at two seconds before it. -/

namespace Motohs.Button

open Lib

/-- Since the Press that follows `before`, in one of the advances of `held`, the
alarm of `TIMER_0` has become due. -/
def AlarmPassed (start : Board) (before held : List Input) : Prop :=
  ∃ early count late tick, held = early ++ .ticks count :: late ∧ tick ≤ count ∧
    (start.after (before ++ .press :: early)).timer0.alarmDueAt tick = true

/-- What is asked of the two timers after a history. -/
structure Lockstep (start : Board) (past : List Input) : Prop where
  running : (start.after past).timer0.running = (start.after past).timer1.running
  counter : (start.after past).timer0.counter = (start.after past).timer1.counter
  runs : (start.after past).timer0.running = true ↔ ∃ ticks, LatestHold past ⟨true, ticks⟩
  counts : ∀ hold, LatestHold past hold → (start.after past).timer0.counter = hold.ticks
  alarm : ∀ tick, (start.after past).timer0.alarmDueAt tick = true →
    ∃ ticks, LatestHold past ⟨true, ticks⟩ ∧ ticks + tick = 2 * timerScale
  emergency : ∀ tick, (start.after past).timer1.alarmDueAt tick = true →
    ∃ before held, past = before ++ .press :: held ∧ .press ∉ held ∧
      ticksOf held + tick = 10 * timerScale ∧
      (AlarmPassed start before held ∨
        ∃ sooner < tick, (start.after past).timer0.alarmDueAt sooner = true)

theorem Follows.alarmDueAt_iff (follows : Follows hold alarm routine timer) (tick : Nat) :
    timer.alarmDueAt tick = true ↔
      hold.down = true ∧ timer.alarmEnabled = true ∧ 0 < tick ∧ hold.ticks + tick = alarm := by
  simp [TickTimer.alarmDueAt, follows.running, follows.counter, follows.alarmValue, and_assoc]

theorem latestHold_down (down : (Hold.idle.after past).down = true) :
    LatestHold past ⟨true, (Hold.idle.after past).ticks⟩ := by
  rw [← down]
  exact latestHold_after past

theorem LatestHold.down_split (latest : LatestHold past ⟨true, ticks⟩) :
    ∃ before held, past = before ++ .press :: held ∧ .press ∉ held ∧ .release ∉ held ∧
      ticks = ticksOf held := by
  cases latest with
  | @down held before noPress noRelease => exact ⟨before, held, rfl, noPress, noRelease, rfl⟩

theorem AlarmPassed.concat (passed : AlarmPassed start before held) (input : Input) :
    AlarmPassed start before (held ++ [input]) := by
  obtain ⟨early, count, late, tick, same, within, due⟩ := passed
  exact ⟨early, count, late ++ [input], tick, by simp [same], within, due⟩

/-- A Press enables the alarm of `TIMER_0`, and within the hold only the alarm
itself disables it again. -/
theorem enabled_or_passed (tracks : Tracks systemTask .idle start) (before held : List Input)
    (noPress : .press ∉ held) (noRelease : .release ∉ held) :
    (start.after (before ++ .press :: held)).timer0.alarmEnabled = true ∧
        ticksOf held < 2 * timerScale ∨
      AlarmPassed start before held := by
  induction held using List.reverseRecOn with
  | nil =>
    left
    have pressed := (tracks.after before).timer0.initialized
    rw [Board.after_append]
    constructor
    · change (((start.after before).timer0.setCounterValue 0).setAlarm true).start.alarmEnabled = true
      rw [TickTimer.restarted_eq pressed]
    · decide
  | append_singleton held input ih =>
    simp only [List.mem_append, List.mem_singleton, not_or] at noPress noRelease
    rcases ih noPress.1 noRelease.1 with ⟨enabled, below⟩ | passed
    · have here := tracks.after (before ++ .press :: held)
      rw [LatestHold.unique (.down noPress.1 noRelease.1)] at here
      have split : start.after (before ++ .press :: (held ++ [input])) =
          (start.after (before ++ .press :: held)).step input := by
        rw [← List.cons_append, ← List.append_assoc, Board.after_append]
        rfl
      cases input with
      | ticks count =>
        by_cases reaches : (start.after (before ++ .press :: held)).timer0.reachesAlarm count = true
        · obtain ⟨tick, within, due⟩ := (TickTimer.reachesAlarm_iff _ _).mp reaches
          exact .inr ⟨held, count, [], tick, rfl, within, due⟩
        · left
          rw [split]
          constructor
          · simp [Board.step, Board.advance, TickTimer.advance, enabled, reaches]
          · have counted : ticksOf (held ++ [.ticks count]) = ticksOf held + count := by
              simp [ticksOf, Input.elapsed]
            simp [TickTimer.reachesAlarm, here.timer0.running, here.timer0.counter,
              here.timer0.alarmValue, enabled, below] at reaches
            omega
      | event event =>
        have same : ticksOf (held ++ [.event event]) = ticksOf held := by
          simp [ticksOf, Input.elapsed]
        left
        rw [split, same]
        refine ⟨?_, below⟩
        cases event with
        | press => exact absurd rfl noPress.2
        | release => exact absurd rfl noRelease.2
        | timer => exact enabled
        | emergencyTimer => exact enabled
    · exact .inr (passed.concat input)

/-- When the alarm of `TIMER_1` becomes due, that of `TIMER_0` has been in the same hold,
or is a few ticks before it in the same advance. -/
theorem emergency_after_alarm (tracks : Tracks systemTask .idle start)
    (due : (start.after past).timer1.alarmDueAt tick = true) :
    ∃ before held, past = before ++ .press :: held ∧ .press ∉ held ∧
      ticksOf held + tick = 10 * timerScale ∧
      (AlarmPassed start before held ∨
        ∃ sooner < tick, (start.after past).timer0.alarmDueAt sooner = true) := by
  have here := tracks.after past
  obtain ⟨down, _, _, value⟩ := (here.timer1.alarmDueAt_iff tick).mp due
  obtain ⟨before, held, rfl, noPress, noRelease, ticks⟩ := (latestHold_down down).down_split
  rw [ticks] at value
  refine ⟨before, held, rfl, noPress, value, ?_⟩
  rcases enabled_or_passed tracks before held noPress noRelease with ⟨enabled, below⟩ | passed
  · right
    have scale : 0 < timerScale := by decide
    have sooner : 2 * timerScale - ticksOf held < tick := by omega
    refine ⟨2 * timerScale - ticksOf held, sooner, ?_⟩
    apply (here.timer0.alarmDueAt_iff _).mpr
    refine ⟨down, enabled, ?_, ?_⟩ <;> omega
  · exact .inl passed

/-- Whatever happens after `Init`, in any order, the two timers agree with each
other and with the latest hold. -/
theorem timers_in_lockstep (systemTask : Address) (board : Board) (past : List Input) :
    Lockstep (board.init systemTask) past := by
  have start := tracks_init systemTask board
  have here := start.after past
  refine ⟨?running, ?counter, ?runs, ?counts, ?alarm, fun _ due => emergency_after_alarm start due⟩
  case running => rw [here.timer0.running, here.timer1.running]
  case counter => rw [here.timer0.counter, here.timer1.counter]
  case runs =>
    rw [here.timer0.running]
    constructor
    · intro down
      exact ⟨_, latestHold_down down⟩
    · intro ⟨ticks, latest⟩
      rw [latest.unique]
  case counts =>
    intro hold latest
    rw [here.timer0.counter, latest.unique]
  case alarm =>
    intro tick due
    obtain ⟨down, _, _, value⟩ := (here.timer0.alarmDueAt_iff tick).mp due
    exact ⟨_, latestHold_down down, value⟩

end Motohs.Button
