import Motohs.Button.Hold

/-! The long-press alarm racing the pin. An alarm interrupt that has become pending
survives whatever the handler does to its timer, and may be delivered at any later
point. Holds are numbered by their Press, so each alarm carries the hold that
raised it. -/

namespace Motohs.Button

open Lib

/-- What happens in order: pin interrupts, and calls to `PushMessage` with the hold they stem from. -/
inductive Entry where
  | press (hold : Nat)
  | release (hold : Nat)
  | push (hold : Nat) (call : PushCall)
  deriving DecidableEq, Repr

inductive RaceStep where
  | press
  | release
  | ticks (count : Nat)
  /-- Delivery of the pending `TIMER_0` alarm that the given hold raised. -/
  | deliver (hold : Nat)
  /-- Delivery of a `TIMER_1` alarm. -/
  | emergency
  deriving DecidableEq, Repr

structure Race where
  board : Board
  down : Bool
  /-- The number of Presses so far, which is the number of the latest hold. -/
  hold : Nat
  /-- The holds whose alarm is pending and not yet delivered. -/
  pending : List Nat
  log : List Entry

namespace Race

def start (systemTask : Address) (board : Board) : Race :=
  ⟨board.init systemTask, false, 0, [], []⟩

/-- Take over what an interrupt did, and log it under the hold it stems from. -/
def handled (race : Race) (hold : Nat) (pin : List Entry) (outcome : Board × Option PushCall) : Race :=
  { race with
    board := outcome.1
    log := race.log ++ pin ++ outcome.2.toList.map (.push hold) }

/-- Press and Release alternate. A pressed pin reads low. -/
def step : Machine Race RaceStep
  | race, .press =>
    if race.down then none else
      some { race.handled (race.hold + 1) [.press (race.hold + 1)] (race.board.buttonPinInterrupt false) with
        down := true
        hold := race.hold + 1 }
  | race, .release =>
    if race.down then
      some { race.handled race.hold [.release race.hold] (race.board.buttonPinInterrupt true) with
        down := false }
    else none
  | race, .ticks count =>
    some { race with
      board := race.board.advance count
      pending := race.pending ++ if race.board.timer0.raisesAlarm count then [race.hold] else [] }
  | race, .deliver hold =>
    if hold ∈ race.pending then
      race.board.timer0.callback.map fun callback =>
        { race.handled hold [] (race.board.runCallback callback) with
          pending := race.pending.erase hold }
    else none
  | race, .emergency =>
    race.board.timer1.callback.map fun callback =>
      race.handled race.hold [] (race.board.runCallback callback)

end Race

/-- Every LongPress comes after the Press whose hold raised its alarm, before that
hold's Release and click, and is the first push of that hold. -/
def LongPressInHold : List Entry → Prop :=
  EachAfter fun past entry => ∀ hold call, entry = .push hold call → call.data = .longPress →
    .press hold ∈ past ∧ .release hold ∉ past ∧ ∀ other, .push hold other ∉ past

theorem LongPressInHold.concat (inside : LongPressInHold log)
    (other : ∀ hold call, entry = .push hold call → call.data ≠ .longPress) :
    LongPressInHold (log ++ [entry]) :=
  eachAfter_concat.mpr ⟨inside, fun hold call same long => absurd long (other hold call same)⟩

/-- A Release logs its pin interrupt and at most a click after it. -/
theorem LongPressInHold.released (inside : LongPressInHold log) (call? : Option PushCall)
    (clicks : ∀ call ∈ call?, call.data.isClick = true) :
    LongPressInHold (log ++ [.release hold] ++ call?.toList.map (.push hold)) := by
  have pin : LongPressInHold (log ++ [.release hold]) := inside.concat (by simp)
  cases call? with
  | none => simpa using pin
  | some call =>
    refine pin.concat ?_
    intro _ _ same long
    obtain ⟨_, rfl⟩ := Entry.push.inj same
    simp [ButtonActions.isClick, long] at clicks

/-- What holds in every run: the board follows the pin, the log is no further than
the latest hold, and a pending alarm of a hold that is over has its Release logged. -/
structure Orderly (systemTask : Address) (race : Race) : Prop where
  tracks : ∃ ticks, Tracks systemTask ⟨race.down, ticks⟩ race.board
  pressed : race.down = true → .press race.hold ∈ race.log
  released : ∀ hold, .release hold ∈ race.log → hold < race.hold ∨ hold = race.hold ∧ race.down = false
  pushed : ∀ hold call, .push hold call ∈ race.log → hold ≤ race.hold
  origin : ∀ hold ∈ race.pending, hold = race.hold ∧ race.down = true ∨ .release hold ∈ race.log

theorem Orderly.pending_le (orderly : Orderly systemTask race) (pending : hold ∈ race.pending) :
    hold ≤ race.hold := by
  rcases orderly.origin hold pending with ⟨same, _⟩ | logged
  · omega
  · rcases orderly.released hold logged with earlier | ⟨same, _⟩ <;> omega

theorem orderly_start (systemTask : Address) (board : Board) :
    Orderly systemTask (.start systemTask board) where
  tracks := ⟨0, tracks_init systemTask board⟩
  pressed := by simp [Race.start]
  released := by simp [Race.start]
  pushed := by simp [Race.start]
  origin := by simp [Race.start]

/-- The delivery of an alarm logs one LongPress for its hold. -/
theorem step_deliver (tracks : Tracks systemTask ⟨race.down, ticks⟩ race.board) :
    Race.step race (.deliver hold) = some next ↔ hold ∈ race.pending ∧
      next = { race with
        pending := race.pending.erase hold
        log := race.log ++ [.push hold ⟨some systemTask, .buttonEvent, .longPress⟩] } := by
  have call : race.board.runCallback .buttonTimerCallback =
      (race.board, some ⟨some systemTask, .buttonEvent, .longPress⟩) :=
    Prod.ext rfl tracks.pushed_timer
  simp only [Race.step, tracks.timer0.callback, Option.map_some, Race.handled, call]
  by_cases pending : hold ∈ race.pending <;> simp [pending, eq_comm]

theorem step_emergency (tracks : Tracks systemTask ⟨race.down, ticks⟩ race.board) :
    Race.step race .emergency = some race := by
  simp [Race.step, tracks.timer1.callback, Race.handled, Board.runCallback,
    Board.buttonEmergencyTimerCallback, Board.handleInterrupt]

theorem step_press : Race.step race .press = some next ↔ race.down = false ∧
    next = { race with
      board := race.board.step .press
      down := true
      hold := race.hold + 1
      log := race.log ++ [.press (race.hold + 1)] } := by
  cases down : race.down with
  | true => simp [Race.step, down]
  | false =>
    simp [Race.step, down, Race.handled, Board.buttonPinInterrupt, Board.step,
      Board.handleInterrupt, eq_comm]

theorem step_release : Race.step race .release = some next ↔ race.down = true ∧
    next = { race with
      board := race.board.step .release
      down := false
      log := race.log ++ [.release race.hold] ++
        (race.board.pushed .release).toList.map (.push race.hold) } := by
  cases down : race.down with
  | false => simp [Race.step, down]
  | true =>
    simp [Race.step, down, Race.handled, Board.buttonPinInterrupt, Board.step, Board.pushed, eq_comm]

theorem Orderly.press (orderly : Orderly systemTask race) (step : Race.step race .press = some next) :
    Orderly systemTask next := by
  obtain ⟨ticks, tracks⟩ := orderly.tracks
  obtain ⟨down, rfl⟩ := step_press.mp step
  refine ⟨⟨0, tracks.step .press⟩, by simp, ?_, ?_, ?_⟩
  · intro hold logged
    rcases orderly.released hold (by simpa using logged) with earlier | ⟨same, _⟩
    · exact .inl (Nat.lt_succ_of_lt earlier)
    · exact .inl (Nat.lt_succ_of_le same.le)
  · intro hold call logged
    exact Nat.le_succ_of_le (orderly.pushed hold call (by simpa using logged))
  · intro hold pending
    rcases orderly.origin hold pending with ⟨_, held⟩ | logged
    · rw [down] at held
      cases held
    · exact .inr (by simp [logged])

theorem Orderly.release (orderly : Orderly systemTask race)
    (step : Race.step race .release = some next) : Orderly systemTask next := by
  obtain ⟨ticks, tracks⟩ := orderly.tracks
  obtain ⟨down, rfl⟩ := step_release.mp step
  refine ⟨⟨ticks, tracks.step .release⟩, by simp, ?_, ?_, ?_⟩
  · intro hold logged
    rcases List.mem_append.mp logged with pin | pushes
    · rcases List.mem_append.mp pin with old | new
      · rcases orderly.released hold old with earlier | ⟨same, _⟩
        · exact .inl earlier
        · exact .inr ⟨same, rfl⟩
      · exact .inr ⟨by simpa using new, rfl⟩
    · simp at pushes
  · intro hold call logged
    rcases List.mem_append.mp logged with pin | pushes
    · exact orderly.pushed hold call (by simpa using pin)
    · obtain ⟨_, _, same⟩ := List.mem_map.mp pushes
      exact (Entry.push.inj same).1.ge
  · intro hold pending
    rcases orderly.origin hold pending with ⟨same, _⟩ | logged
    · exact .inr (by simp [same])
    · exact .inr (by simp [logged])

/-- An alarm is raised by a running timer, so while its hold lasts. -/
theorem Orderly.ticks (orderly : Orderly systemTask race)
    (step : Race.step race (.ticks count) = some next) : Orderly systemTask next := by
  obtain ⟨ticks, tracks⟩ := orderly.tracks
  obtain rfl := Option.some.inj step
  have moved := tracks.step (.ticks count)
  refine ⟨⟨_, moved⟩, orderly.pressed, orderly.released, orderly.pushed, ?_⟩
  intro hold pending
  rcases List.mem_append.mp pending with old | new
  · exact orderly.origin hold old
  · split at new
    · rename_i raised
      have running : race.board.timer0.running = true := by
        simp only [TickTimer.raisesAlarm, TickTimer.reachesAlarm, Bool.and_eq_true] at raised
        exact raised.2.1.1
      exact .inl ⟨by simpa using new, tracks.timer0.running.symm.trans running⟩
    · simp at new

theorem Orderly.deliver (orderly : Orderly systemTask race)
    (step : Race.step race (.deliver hold) = some next) : Orderly systemTask next := by
  obtain ⟨ticks, tracks⟩ := orderly.tracks
  obtain ⟨pending, rfl⟩ := (step_deliver tracks).mp step
  refine ⟨⟨ticks, tracks⟩, ?_, ?_, ?_, ?_⟩
  · intro down
    exact List.mem_append_left _ (orderly.pressed down)
  · intro other logged
    exact orderly.released other (by simpa using logged)
  · intro other call logged
    rcases List.mem_append.mp logged with old | new
    · exact orderly.pushed other call old
    · have same := (Entry.push.inj (List.mem_singleton.mp new)).1
      exact same.le.trans (orderly.pending_le pending)
  · intro other still
    rcases orderly.origin other (List.mem_of_mem_erase still) with own | logged
    · exact .inl own
    · exact .inr (List.mem_append_left _ logged)

theorem Orderly.step (orderly : Orderly systemTask race) (step : Race.step race event = some next) :
    Orderly systemTask next := by
  cases event with
  | press => exact orderly.press step
  | release => exact orderly.release step
  | ticks count => exact orderly.ticks step
  | deliver hold => exact orderly.deliver step
  | emergency =>
    obtain ⟨ticks, tracks⟩ := orderly.tracks
    rw [step_emergency tracks, Option.some.injEq] at step
    exact step ▸ orderly

/-- Where a hold stands with its alarm, as long as no Release overtakes one. -/
inductive Phase (race : Race) : Prop where
  | idle (down : race.down = false) (quiet : race.pending = [])
  | waiting (down : race.down = true) (quiet : race.pending = [])
      (fresh : ∀ call, .push race.hold call ∉ race.log)
  | due (down : race.down = true) (quiet : race.pending = [race.hold])
      (fresh : ∀ call, .push race.hold call ∉ race.log)
      (spent : race.board.timer0.alarmEnabled = false)
  | spent (down : race.down = true) (quiet : race.pending = [])
      (spent : race.board.timer0.alarmEnabled = false)

/-- The condition on a step: no Release is handled while an alarm is pending. -/
def NotOvertaking (race : Race) (step : RaceStep) : Prop :=
  step = .release → race.pending = []

theorem Phase.ticks (orderly : Orderly systemTask race) (phase : Phase race)
    (step : Race.step race (.ticks count) = some next) : Phase next := by
  obtain ⟨ticks, tracks⟩ := orderly.tracks
  obtain rfl := Option.some.inj step
  have idleTimer : race.board.timer0.running = false ∨ race.board.timer0.alarmEnabled = false →
      race.board.timer0.raisesAlarm count = false := by
    rintro (stopped | spent) <;> simp [TickTimer.raisesAlarm, TickTimer.reachesAlarm, *]
  have stays : race.board.timer0.alarmEnabled = false →
      (race.board.advance count).timer0.alarmEnabled = false := by
    intro spent
    simp [Board.advance, TickTimer.advance, spent]
  cases phase with
  | idle down quiet =>
    have stopped : race.board.timer0.running = false := tracks.timer0.running.trans down
    exact .idle down (by simp [quiet, idleTimer (.inl stopped)])
  | waiting down quiet fresh =>
    cases raised : race.board.timer0.raisesAlarm count with
    | false => exact .waiting down (by simp [quiet]) fresh
    | true =>
      have reached : race.board.timer0.reachesAlarm count = true := by
        simp only [TickTimer.raisesAlarm, Bool.and_eq_true] at raised
        exact raised.2
      exact .due down (by simp [quiet]) fresh
        (by simp [Board.advance, TickTimer.advance, reached])
  | due down quiet fresh spent =>
    exact .due down (by simp [quiet, idleTimer (.inr spent)]) fresh (stays spent)
  | spent down quiet spent =>
    exact .spent down (by simp [quiet, idleTimer (.inr spent)]) (stays spent)

theorem Phase.press (orderly : Orderly systemTask race) (phase : Phase race)
    (step : Race.step race .press = some next) : Phase next := by
  obtain ⟨down, rfl⟩ := step_press.mp step
  have quiet : race.pending = [] := by
    cases phase with
    | idle _ quiet => exact quiet
    | waiting held | due held | spent held => simp [down] at held
  refine .waiting rfl quiet ?_
  intro call logged
  have earlier := orderly.pushed _ call (by simpa using logged)
  omega

/-- A Release pushes nothing but clicks. -/
theorem isClick_of_release (tracks : Tracks systemTask hold board)
    (pushed : call ∈ board.pushed .release) : call.data.isClick = true := by
  rw [tracks.pushed_release, Option.mem_def, Option.map_eq_some_iff] at pushed
  obtain ⟨action, click, rfl⟩ := pushed
  unfold clickFor at click
  split at click
  · cases click
    rfl
  · split at click
    · cases click
      rfl
    · cases click

/-- The alarm of the hold in progress is delivered inside it. -/
theorem inside_deliver (orderly : Orderly systemTask race) (phase : Phase race)
    (inside : LongPressInHold race.log) (step : Race.step race (.deliver hold) = some next) :
    Phase next ∧ LongPressInHold next.log := by
  obtain ⟨ticks, tracks⟩ := orderly.tracks
  obtain ⟨pending, rfl⟩ := (step_deliver tracks).mp step
  cases phase with
  | idle _ quiet | waiting _ quiet | spent _ quiet => simp [quiet] at pending
  | due down quiet fresh spent =>
    obtain rfl : hold = race.hold := by simpa [quiet] using pending
    refine ⟨.spent down (by simp [quiet]) spent, eachAfter_concat.mpr ⟨inside, ?_⟩⟩
    intro _ _ same _
    obtain ⟨rfl, _⟩ := Entry.push.inj same
    refine ⟨orderly.pressed down, ?_, fresh⟩
    intro logged
    rcases orderly.released _ logged with earlier | ⟨_, up⟩
    · omega
    · simp [down] at up

/-- One step keeps every LongPress inside its hold unless a Release overtakes an alarm. -/
theorem step_inside (orderly : Orderly systemTask race) (phase : Phase race)
    (inside : LongPressInHold race.log) (allowed : NotOvertaking race event)
    (step : Race.step race event = some next) : Phase next ∧ LongPressInHold next.log := by
  obtain ⟨ticks, tracks⟩ := orderly.tracks
  cases event with
  | press =>
    have moved := phase.press orderly step
    obtain ⟨_, rfl⟩ := step_press.mp step
    exact ⟨moved, inside.concat (by simp)⟩
  | release =>
    obtain ⟨_, rfl⟩ := step_release.mp step
    exact ⟨.idle rfl (allowed rfl), inside.released _ fun call => isClick_of_release tracks⟩
  | ticks count =>
    have log : next.log = race.log := by
      obtain rfl := Option.some.inj step
      rfl
    exact ⟨phase.ticks orderly step, log ▸ inside⟩
  | deliver hold => exact inside_deliver orderly phase inside step
  | emergency =>
    rw [step_emergency tracks, Option.some.injEq] at step
    exact step ▸ ⟨phase, inside⟩

/-- Once a Release has overtaken a pending alarm, the log is spoilt for good or
will be when that alarm is delivered. -/
def Overtaken (race : Race) : Prop :=
  (∃ hold ∈ race.pending, .release hold ∈ race.log) ∨ ¬ LongPressInHold race.log

theorem Overtaken.step (orderly : Orderly systemTask race) (overtaken : Overtaken race)
    (step : Race.step race event = some next) : Overtaken next := by
  obtain ⟨ticks, tracks⟩ := orderly.tracks
  have grows : ∃ more, next.log = race.log ++ more := by
    cases event with
    | press => exact ⟨_, congrArg Race.log (step_press.mp step).2⟩
    | release => exact ⟨_, (congrArg Race.log (step_release.mp step).2).trans (List.append_assoc ..)⟩
    | ticks count => exact ⟨[], by simp [← Option.some.inj step]⟩
    | deliver hold => exact ⟨_, congrArg Race.log ((step_deliver tracks).mp step).2⟩
    | emergency => exact ⟨[], by simp [← Option.some.inj ((step_emergency tracks).symm.trans step)]⟩
  obtain ⟨more, log⟩ := grows
  rcases overtaken with ⟨late, pending, released⟩ | spoilt
  · by_cases delivered : event = .deliver late
    · subst delivered
      obtain ⟨_, rfl⟩ := (step_deliver tracks).mp step
      right
      intro inside
      exact ((eachAfter_concat.mp inside).2 late _ rfl rfl).2.1 released
    · left
      refine ⟨late, ?_, by simp [log, released]⟩
      cases event with
      | press => simpa [(step_press.mp step).2] using pending
      | release => simpa [(step_release.mp step).2] using pending
      | ticks count => simp [← Option.some.inj step, pending]
      | deliver hold =>
        have other : late ≠ hold := fun same => delivered (congrArg RaceStep.deliver same.symm)
        rw [((step_deliver tracks).mp step).2]
        exact (List.mem_erase_of_ne other).mpr pending
      | emergency =>
        rwa [← Option.some.inj ((step_emergency tracks).symm.trans step)]
  · right
    rw [log]
    exact fun inside => spoilt inside.of_append

/-- A run that delivered every alarm it raised, each LongPress in its hold, let no
Release overtake one. -/
theorem notOvertaking_of_inside
    (ran : Race.step.run (.start systemTask board) steps = some final)
    (settled : final.pending = []) (inside : LongPressInHold final.log) :
    Race.step.EachStep (.start systemTask board) NotOvertaking steps := by
  intro past event rest same race before release
  subst release
  subst same
  obtain ⟨reached, first, later⟩ := Machine.run_append_eq_some.mp ran
  obtain rfl := Option.some.inj (first.symm.trans before)
  obtain ⟨next, step, later⟩ := Machine.run_cons_eq_some.mp later
  have orderly : Orderly systemTask reached :=
    Machine.run_invariant (motive := fun _ race => Orderly systemTask race)
      (orderly_start systemTask board) (fun _ _ _ _ orderly step => orderly.step step) before
  by_contra waiting
  obtain ⟨hold, pending⟩ := List.exists_mem_of_ne_nil _ waiting
  have overtaken : Overtaken next := by
    obtain ⟨down, rfl⟩ := step_release.mp step
    refine .inl ⟨hold, pending, ?_⟩
    rcases orderly.origin hold pending with ⟨same, _⟩ | logged
    · simp [same]
    · simp [logged]
  have spoilt : Orderly systemTask final ∧ Overtaken final :=
    Machine.run_invariant (motive := fun _ race => Orderly systemTask race ∧ Overtaken race)
      ⟨orderly.step step, overtaken⟩
      (fun _ _ _ _ kept step => ⟨kept.1.step step, kept.2.step kept.1 step⟩) later
  rcases spoilt.2 with ⟨late, still, _⟩ | broken
  · simp [settled] at still
  · exact broken inside

/-- As long as no Release overtakes a pending alarm, every LongPress lies inside the
hold that raised it, in every state of the run. A run with no alarm left pending
has all of them inside only if no Release overtook one. -/
theorem longPress_in_hold (systemTask : Address) (board : Board) (steps : List RaceStep) :
    (Race.step.EachStep (.start systemTask board) NotOvertaking steps →
      Race.step.Along (.start systemTask board) (fun _ race => LongPressInHold race.log) steps) ∧
    ∀ final, Race.step.run (.start systemTask board) steps = some final → final.pending = [] →
      LongPressInHold final.log → Race.step.EachStep (.start systemTask board) NotOvertaking steps := by
  constructor
  · intro allowed past rest race same before
    have kept : Orderly systemTask race ∧ Phase race ∧ LongPressInHold race.log := by
      refine Machine.along_history NotOvertaking
        (motive := fun _ race => Orderly systemTask race ∧ Phase race ∧ LongPressInHold race.log)
        ⟨orderly_start systemTask board, .idle rfl rfl, eachAfter_nil _⟩ ?_ allowed past rest race
        same before
      rintro _ state event next ⟨orderly, phase, inside⟩ ok step
      exact ⟨orderly.step step, step_inside orderly phase inside ok step⟩
    exact kept.2.2
  · intro final ran settled inside
    exact notOvertaking_of_inside ran settled inside

/-- A hold past two seconds whose Release is handled with the alarm still pending:
the LongPress comes after the click. -/
theorem longPress_after_click :
    ¬ Race.step.Along (.start 1 (.powerOn 0)) (fun _ race => LongPressInHold race.log)
      [.press, .ticks 12000000, .release, .deliver 1] := by
  intro inside
  have settled : (Race.step.run (.start 1 (.powerOn 0))
      [.press, .ticks 12000000, .release, .deliver 1]).map Race.pending = some [] := rfl
  have waiting : (Race.step.run (.start 1 (.powerOn 0))
      [.press, .ticks 12000000]).map Race.pending = some [1] := rfl
  obtain ⟨final, ran, settled⟩ := Option.map_eq_some_iff.mp settled
  obtain ⟨race, before, waiting⟩ := Option.map_eq_some_iff.mp waiting
  have allowed := notOvertaking_of_inside ran settled (inside _ [] final (List.append_nil _).symm ran)
  have quiet := allowed [.press, .ticks 12000000] .release [.deliver 1] rfl race before rfl
  simp [quiet] at waiting

end Motohs.Button
