import Motohs.Lib.Machine
import Motohs.Button.Handler
import Motohs.SystemTask.Task

/-! Start-up of the whole: `app_main` runs `SystemTask::Start`, the task it creates
runs `ButtonHandler::Init`, and interrupts come in as soon as they can. Three
threads share the pointer `system_task` and the handle `msg_queue`. -/

namespace Motohs.SystemTask

open Lib Motohs.Button

/-- The statements of `Start`. The new task may run before `xTaskCreate` returns. -/
inductive StartCall where
  | xQueueCreate
  | xTaskCreate (name : String) (stackDepth priority : Nat)
  | xTaskCreateReturns
  deriving DecidableEq, Repr

def startCalls : List StartCall :=
  [.xQueueCreate, .xTaskCreate "SYS_TASK" 4096 1, .xTaskCreateReturns]

/-- Where `SYS_TASK` is. -/
inductive SysTask where
  | absent
  /-- Created, `Process` not yet entered. -/
  | process
  /-- In `Run`, inside `button_handler.Init(this)` with these calls still to make. -/
  | init (remaining : List InitCall)
  | loop

structure Wiring where
  /-- What `app_main` has left of `Start`. -/
  main : List StartCall
  sys : SysTask
  task : SystemTask
  board : Board
  /-- Calls to `PushMessage` that running interrupt handlers are about to make. -/
  calls : List PushCall
  /-- `system_task` as each call to `HandleInterrupt` found it. -/
  handled : List (Option Address)
  /-- The object each call to `PushMessage` was made on, and whether its queue existed. -/
  pushed : List (Option Address × Bool)
  /-- Whether the queue existed at each call to `xQueueReceive`. -/
  received : List Bool

inductive WiringStep where
  | main
  | sys
  | pin (level : Bool)
  | alarm (index : TimerIdx)
  /-- The interrupt handler that got this far calls `PushMessage`. -/
  | push (index : Nat)
  | ticks (count : Nat)
  deriving DecidableEq, Repr

namespace Wiring

def start (buttonGpio : Nat) : Wiring :=
  ⟨startCalls, .absent, ⟨none⟩, .powerOn buttonGpio, [], [], [], []⟩

/-- `HandleInterrupt` runs up to its call to `PushMessage`, if it comes to one. -/
def interrupt (wiring : Wiring) (outcome : Board × Option PushCall) : Wiring :=
  { wiring with
    board := outcome.1
    handled := wiring.handled ++ [wiring.board.handler.systemTask]
    calls := wiring.calls ++ outcome.2.toList }

def mainStep (wiring : Wiring) : Option Wiring :=
  match wiring.main with
  | [] => none
  | .xQueueCreate :: rest => some { wiring with main := rest, task := wiring.task.xQueueCreate }
  | .xTaskCreate _ _ _ :: rest => some { wiring with main := rest, sys := .process }
  | .xTaskCreateReturns :: rest => some { wiring with main := rest }

/-- `systemTask` is the task object, which `Process` gets as its argument. -/
def sysStep (systemTask : Address) (wiring : Wiring) : Option Wiring :=
  match wiring.sys with
  | .absent => none
  | .process => some { wiring with sys := .init (initCalls wiring.board.handler.buttonGpio systemTask) }
  | .init (call :: rest) => some { wiring with board := call.exec wiring.board, sys := .init rest }
  | .init [] => some { wiring with sys := .loop }
  | .loop => some { wiring with
      received := wiring.received ++ [wiring.task.msgQueue.isSome]
      task := ⟨wiring.task.msgQueue.map fun queue => (turn queue).1⟩ }

def pushStep (wiring : Wiring) (index : Nat) : Option Wiring :=
  wiring.calls[index]?.map fun call => { wiring with
    calls := wiring.calls.eraseIdx index
    pushed := wiring.pushed ++ [(call.receiver, wiring.task.msgQueue.isSome)]
    task :=
      match wiring.task.pushMessage true call.type call.data with
      | .returned task => task
      | .blocked | .noQueue => wiring.task }

def step (systemTask : Address) : Machine Wiring WiringStep
  | wiring, .main => wiring.mainStep
  | wiring, .sys => wiring.sysStep systemTask
  | wiring, .pin level =>
    if wiring.board.gpio.isrHandler then
      some (wiring.interrupt (wiring.board.buttonPinInterrupt level))
    else none
  | wiring, .alarm index =>
    (wiring.board.timer index).callback.map fun callback =>
      wiring.interrupt (wiring.board.runCallback callback)
  | wiring, .push index => wiring.pushStep index
  | wiring, .ticks count => some { wiring with board := wiring.board.advance count }

/-- Every call so far found the pointer and the queue it needs. -/
structure SeesWired (systemTask : Address) (wiring : Wiring) : Prop where
  handled : ∀ seen ∈ wiring.handled, seen = some systemTask
  pushed : ∀ seen ∈ wiring.pushed, seen = (some systemTask, true)
  received : ∀ seen ∈ wiring.received, seen = true

end Wiring

/-- Nothing on the board can interrupt. -/
structure Silent (board : Board) : Prop where
  pin : board.gpio.isrHandler = false
  alarm : ∀ index, (board.timer index).callback = none

/-- How far the handler is wired: before the first call of `Init` no interrupt can
be delivered, from then on `system_task` is set for good. -/
inductive Wired (systemTask : Address) (board : Board) : SysTask → Prop where
  | absent (silent : Silent board) : Wired systemTask board .absent
  | process (silent : Silent board) : Wired systemTask board .process
  | entered (silent : Silent board) :
      Wired systemTask board (.init (initCalls board.handler.buttonGpio systemTask))
  | init (wired : board.handler.systemTask = some systemTask)
      (last : ∀ other, .setSystemTask other ∉ rest) : Wired systemTask board (.init rest)
  | loop (wired : board.handler.systemTask = some systemTask) : Wired systemTask board .loop

/-- How far `Start` has come, and what exists by then: the queue before the task. -/
inductive Started : List StartCall → SysTask → Bool → Prop where
  | begin : Started startCalls .absent created
  | queued : Started (startCalls.drop 1) .absent true
  | spawned (done : Nat) : Started (startCalls.drop (done + 2)) sys true

structure Inv (systemTask : Address) (wiring : Wiring) : Prop where
  wired : Wired systemTask wiring.board wiring.sys
  started : Started wiring.main wiring.sys wiring.task.msgQueue.isSome
  calls : ∀ call ∈ wiring.calls,
    call.receiver = some systemTask ∧ wiring.task.msgQueue.isSome = true
  seen : Wiring.SeesWired systemTask wiring

theorem inv_start (systemTask : Address) (buttonGpio : Nat) :
    Inv systemTask (.start buttonGpio) where
  wired := .absent ⟨rfl, by intro index; cases index <;> rfl⟩
  started := .begin
  calls := by simp [Wiring.start]
  seen := by constructor <;> simp [Wiring.start]

theorem Started.created_of_present {created : Bool} (started : Started main sys created) (present : sys ≠ .absent) :
    created = true := by
  cases started with
  | begin | queued => exact absurd rfl present
  | spawned _ => rfl

theorem Started.move {created : Bool} (started : Started main sys created) (present : sys ≠ .absent)
    (other : SysTask) : Started main other created := by
  cases started with
  | begin | queued => exact absurd rfl present
  | spawned done => exact .spawned done

/-- Whatever can interrupt finds the pointer set and the task created. -/
theorem Wired.loud (wired : Wired systemTask board sys) (loud : ¬ Silent board) :
    board.handler.systemTask = some systemTask ∧ sys ≠ .absent := by
  cases wired with
  | absent silent | process silent | entered silent => exact absurd silent loud
  | init wired _ | loop wired => exact ⟨wired, by simp⟩

/-- An interrupt or the passing of time leaves the wiring as it is. -/
structure SameWiring (board next : Board) : Prop where
  handler : next.handler = board.handler
  gpio : next.gpio = board.gpio
  callback : ∀ index, (next.timer index).callback = (board.timer index).callback

theorem Wired.same (wired : Wired systemTask board sys) (same : SameWiring board next) :
    Wired systemTask next sys := by
  have quiet (silent : Silent board) : Silent next :=
    ⟨same.gpio ▸ silent.pin, fun index => (same.callback index).trans (silent.alarm index)⟩
  cases wired with
  | absent silent => exact .absent (quiet silent)
  | process silent => exact .process (quiet silent)
  | entered silent =>
    rw [← same.handler]
    exact .entered (quiet silent)
  | init wired last => exact .init (same.handler ▸ wired) last
  | loop wired => exact .loop (same.handler ▸ wired)

theorem sameWiring_handleInterrupt (board : Board) (event : Events) :
    SameWiring board (board.handleInterrupt event).1 := by
  cases event with
  | press =>
    refine ⟨rfl, rfl, fun index => ?_⟩
    simp [Board.handleInterrupt, Board.timer_pressed]
  | release =>
    refine ⟨rfl, rfl, fun index => ?_⟩
    simp [Board.handleInterrupt, Board.timer_released]
  | timer | emergencyTimer => exact ⟨rfl, rfl, fun _ => rfl⟩

theorem sameWiring_runCallback (board : Board) (callback : TimerCallback) :
    SameWiring board (board.runCallback callback).1 := by
  cases callback with
  | buttonTimerCallback => exact sameWiring_handleInterrupt board .timer
  | buttonEmergencyTimerCallback => exact sameWiring_handleInterrupt board .emergencyTimer

/-- `HandleInterrupt` goes through `system_task` as it finds it. -/
theorem receiver_handleInterrupt (board : Board) (event : Events)
    (made : (board.handleInterrupt event).2 = some call) :
    call.receiver = board.handler.systemTask := by
  cases event with
  | press | emergencyTimer => cases made
  | timer =>
    cases made
    rfl
  | release =>
    obtain ⟨action, _, rfl⟩ := Option.map_eq_some_iff.mp made
    rfl

theorem receiver_runCallback (board : Board) (made : (board.runCallback callback).2 = some call) :
    call.receiver = board.handler.systemTask := by
  cases callback with
  | buttonTimerCallback => exact receiver_handleInterrupt board .timer made
  | buttonEmergencyTimerCallback => cases made

theorem Wired.exec (wired : Wired systemTask board (.init (call :: rest))) :
    Wired systemTask (call.exec board) (.init rest) := by
  have keeps (other : ∀ address, call ≠ .setSystemTask address) :
      (call.exec board).handler = board.handler := by
    cases call with
    | setSystemTask address => exact absurd rfl (other address)
    | gpioConfig _ | gpioSetIntrType _ | gpioInstallIsrService | gpioIsrHandlerAdd => rfl
    | timerInit index _ | timerSetCounterValue index _ | timerSetAlarmValue index _
      | timerEnableIntr index | timerIsrCallbackAdd index _ => cases index <;> rfl
  generalize remaining : SysTask.init (call :: rest) = sys at wired
  cases wired with
  | absent _ | process _ | loop _ => cases remaining
  | entered silent =>
    obtain ⟨rfl, rfl⟩ := List.cons.inj (SysTask.init.inj remaining)
    exact .init rfl (by simp [initHwTimers])
  | init wired last =>
    cases remaining
    simp only [List.mem_cons, not_or] at last
    refine .init ?_ fun other => (last other).2
    rw [keeps fun address same => (last address).1 same.symm]
    exact wired

theorem Inv.main (inv : Inv systemTask wiring) (step : wiring.mainStep = some next) :
    Inv systemTask next := by
  obtain ⟨main, sys, task, board, calls, handled, pushed, received⟩ := wiring
  obtain ⟨wired, started, callsOk, seen⟩ := inv
  generalize present : task.msgQueue.isSome = created at started
  cases started with
  | begin =>
    obtain rfl := Option.some.inj step
    exact ⟨wired, .queued, fun call member => ⟨(callsOk call member).1, rfl⟩, seen.1, seen.2, seen.3⟩
  | queued =>
    obtain rfl := Option.some.inj step
    cases wired with
    | absent silent =>
      exact ⟨.process silent, present ▸ .spawned 0, callsOk, seen.1, seen.2, seen.3⟩
  | spawned done =>
    cases done with
    | zero =>
      obtain rfl := Option.some.inj step
      exact ⟨wired, present ▸ .spawned 1, callsOk, seen.1, seen.2, seen.3⟩
    | succ done => cases done <;> cases step

theorem Inv.sys (inv : Inv systemTask wiring) (step : wiring.sysStep systemTask = some next) :
    Inv systemTask next := by
  obtain ⟨main, sys, task, board, calls, handled, pushed, received⟩ := wiring
  obtain ⟨wired, started, callsOk, seen⟩ := inv
  change Wired systemTask board sys at wired
  cases sys with
  | absent => cases step
  | process =>
    obtain rfl := Option.some.inj step
    refine ⟨.entered ?_, started.move (by simp) _, callsOk, seen.1, seen.2, seen.3⟩
    generalize entering : SysTask.process = sys at wired
    cases wired with
    | process silent => exact silent
    | absent _ | entered _ | init _ _ | loop _ => cases entering
  | init remaining =>
    cases remaining with
    | nil =>
      obtain rfl := Option.some.inj step
      refine ⟨.loop ?_, started.move (by simp) _, callsOk, seen.1, seen.2, seen.3⟩
      generalize finished : SysTask.init [] = sys at wired
      cases wired with
      | absent _ | process _ | entered _ | loop _ => cases finished
      | init wired _ => exact wired
    | cons call rest =>
      obtain rfl := Option.some.inj step
      exact ⟨wired.exec, started.move (by simp) _, callsOk, seen.1, seen.2, seen.3⟩
  | loop =>
    obtain rfl := Option.some.inj step
    have created := started.created_of_present (by simp)
    obtain ⟨queue, found⟩ := Option.isSome_iff_exists.mp created
    change task.msgQueue = some queue at found
    refine ⟨wired, ?_, ?_, seen.1, seen.2, ?_⟩
    · simpa [found] using started
    · intro call member
      exact ⟨(callsOk call member).1, by simp [found]⟩
    · intro found member
      rcases List.mem_append.mp member with old | new
      · exact seen.received found old
      · exact (List.mem_singleton.mp new).trans created

/-- An interrupt is delivered only when the pointer is set and the queue exists. -/
theorem Inv.interrupt (inv : Inv systemTask wiring) (loud : ¬ Silent wiring.board)
    (same : SameWiring wiring.board outcome.1)
    (receiver : ∀ call, outcome.2 = some call → call.receiver = wiring.board.handler.systemTask) :
    Inv systemTask (wiring.interrupt outcome) := by
  obtain ⟨set, present⟩ := inv.wired.loud loud
  have created := inv.started.created_of_present present
  refine ⟨inv.wired.same same, inv.started, ?_, ?_, inv.seen.pushed, inv.seen.received⟩
  · intro call member
    rcases List.mem_append.mp member with old | new
    · exact inv.calls call old
    · exact ⟨(receiver call (by simpa using new)).trans set, created⟩
  · intro found member
    rcases List.mem_append.mp member with old | new
    · exact inv.seen.handled found old
    · exact (List.mem_singleton.mp new).trans set

theorem Inv.push (inv : Inv systemTask wiring) (step : wiring.pushStep index = some next) :
    Inv systemTask next := by
  obtain ⟨call, found, rfl⟩ := Option.map_eq_some_iff.mp step
  obtain ⟨receiver, created⟩ := inv.calls call (List.mem_of_getElem? found)
  obtain ⟨queue, present⟩ := Option.isSome_iff_exists.mp created
  obtain ⟨main, sys, ⟨_⟩, board, calls, handled, pushed, received⟩ := wiring
  cases present
  refine ⟨inv.wired, inv.started, ?_, inv.seen.handled, ?_, inv.seen.received⟩
  · intro other member
    exact ⟨(inv.calls other (List.mem_of_mem_eraseIdx member)).1, rfl⟩
  · intro seen member
    rcases List.mem_append.mp member with old | new
    · exact inv.seen.pushed seen old
    · rw [List.mem_singleton.mp new, receiver]
      rfl

theorem Inv.step (inv : Inv systemTask wiring)
    (step : Wiring.step systemTask wiring event = some next) : Inv systemTask next := by
  cases event with
  | main => exact inv.main step
  | sys => exact inv.sys step
  | pin level =>
    simp only [Wiring.step] at step
    split at step
    · rename_i delivered
      obtain rfl := Option.some.inj step
      refine inv.interrupt (fun silent => by simp [silent.pin] at delivered)
        (sameWiring_handleInterrupt _ _) fun call made => ?_
      exact receiver_handleInterrupt wiring.board _ made
    · cases step
  | alarm index =>
    obtain ⟨callback, registered, rfl⟩ := Option.map_eq_some_iff.mp step
    refine inv.interrupt (fun silent => by simp [silent.alarm index] at registered)
      (sameWiring_runCallback _ callback) fun call made => ?_
    exact receiver_runCallback wiring.board made
  | push index => exact inv.push step
  | ticks count =>
    obtain rfl := Option.some.inj step
    have same : SameWiring wiring.board (wiring.board.advance count) :=
      ⟨rfl, rfl, fun index => by cases index <;> rfl⟩
    exact ⟨inv.wired.same same, inv.started, inv.calls, inv.seen.1, inv.seen.2, inv.seen.3⟩

/-- However `Start`, the new task and the interrupts interleave, every call to
`HandleInterrupt` finds `system_task` set to the task, and every call to
`PushMessage` and `xQueueReceive` finds its queue. -/
theorem nothing_before_wired (systemTask : Address) (buttonGpio : Nat) (steps : List WiringStep) :
    (Wiring.step systemTask).Along (.start buttonGpio)
      (fun _ wiring => wiring.SeesWired systemTask) steps := by
  intro past rest wiring _ ran
  have inv : Inv systemTask wiring :=
    Machine.run_invariant (motive := fun _ wiring => Inv systemTask wiring)
      (inv_start systemTask buttonGpio) (fun _ _ _ _ inv step => inv.step step) ran
  exact inv.seen

end Motohs.SystemTask
