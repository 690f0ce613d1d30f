import Motohs.Button.Board

/-! `button.cpp`: the interrupt handler and the calls that `Init` makes. -/

namespace Motohs.Button

open Lib

inductive Events where
  | press
  | release
  | timer
  | emergencyTimer
  deriving DecidableEq, Repr

namespace Board

/-- The body that `StartTimer` and `StartEmergencyTimer` share. -/
def restart (index : TimerIdx) (board : Board) : Board :=
  ((board.timerSetCounterValue index 0).timerSetAlarm index true).timerStart index

def startTimer : Board → Board := restart .timer0

def startEmergencyTimer : Board → Board := restart .timer1

def stopTimer : Board → Board := timerPause .timer0

def stopEmergencyTimer : Board → Board := timerPause .timer1

/-- `system_task->PushMessage(MsgType::ButtonEvent, action)`, as a call yet to be made. -/
def pushMessage (action : ButtonActions) (board : Board) : PushCall :=
  ⟨board.handler.systemTask, .buttonEvent, action⟩

/-- The click that `HandleInterrupt` reads off the stopped timer. A hold of two
seconds to the tick satisfies neither comparison. -/
def clickOf (value : ℚ) : Option ButtonActions :=
  if value < 2 then some .shortClick
  else if value > 2 then some .longClick
  else none

/-- The board after the event and the call to `PushMessage` made on the way, if any. -/
def handleInterrupt (board : Board) : Events → Board × Option PushCall
  | .press => (board.startTimer.startEmergencyTimer, none)
  | .release =>
    let stopped := board.stopTimer.stopEmergencyTimer
    let value := stopped.timerGetCounterTimeSec .timer0 0
    (stopped, (clickOf value).map stopped.pushMessage)
  | .timer => (board, some (board.pushMessage .longPress))
  | .emergencyTimer => (board, none)

theorem timer_pressed (board : Board) (index : TimerIdx) :
    board.startTimer.startEmergencyTimer.timer index =
      (((board.timer index).setCounterValue 0).setAlarm true).start := by
  cases index <;> rfl

theorem timer_released (board : Board) (index : TimerIdx) :
    board.stopTimer.stopEmergencyTimer.timer index = (board.timer index).pause := by
  cases index <;> rfl

/-- The pin is pulled up, so a pressed button reads low. -/
def buttonPinInterrupt (level : Bool) (board : Board) : Board × Option PushCall :=
  board.handleInterrupt (if level = false then .press else .release)

def buttonTimerCallback (board : Board) : Board × Option PushCall :=
  board.handleInterrupt .timer

def buttonEmergencyTimerCallback (board : Board) : Board × Option PushCall :=
  board.handleInterrupt .emergencyTimer

/-- What the driver does on an alarm interrupt: run the callback registered for it. -/
def runCallback (board : Board) : TimerCallback → Board × Option PushCall
  | .buttonTimerCallback => board.buttonTimerCallback
  | .buttonEmergencyTimerCallback => board.buttonEmergencyTimerCallback

end Board

/-- One statement of `Init` or `InitHwTimers`, with its arguments. -/
inductive InitCall where
  | setSystemTask (systemTask : Address)
  | gpioConfig (config : GpioConfig)
  | gpioSetIntrType (intrType : GpioIntrType)
  | gpioInstallIsrService
  | gpioIsrHandlerAdd
  | timerInit (index : TimerIdx) (config : TimerConfig)
  | timerSetCounterValue (index : TimerIdx) (value : Nat)
  | timerSetAlarmValue (index : TimerIdx) (value : Nat)
  | timerEnableIntr (index : TimerIdx)
  | timerIsrCallbackAdd (index : TimerIdx) (callback : TimerCallback)
  deriving DecidableEq

def InitCall.exec : InitCall → Board → Board
  | .setSystemTask systemTask => Board.setSystemTask systemTask
  | .gpioConfig config => Board.gpioConfig config
  | .gpioSetIntrType intrType => Board.gpioSetIntrType intrType
  | .gpioInstallIsrService => Board.gpioInstallIsrService
  | .gpioIsrHandlerAdd => Board.gpioIsrHandlerAdd
  | .timerInit index config => Board.timerInit index config
  | .timerSetCounterValue index value => Board.timerSetCounterValue index value
  | .timerSetAlarmValue index value => Board.timerSetAlarmValue index value
  | .timerEnableIntr index => Board.timerEnableIntr index
  | .timerIsrCallbackAdd index callback => Board.timerIsrCallbackAdd index callback

/-- The `io_conf` of `Init`. -/
def ioConf (buttonGpio : Nat) : GpioConfig where
  pinBitMask := 1 <<< UInt64.ofNat buttonGpio
  mode := .input
  pullUpEn := true
  pullDownEn := false
  intrType := .anyEdge

/-- The `config` of `InitHwTimers`: paused, alarm enabled. -/
def timerConfig : TimerConfig where
  divider := timerDivider
  counterEn := false
  alarmEn := true

def initHwTimers : List InitCall :=
  [.timerInit .timer0 timerConfig,
   .timerInit .timer1 timerConfig,
   .timerSetCounterValue .timer0 0,
   .timerSetCounterValue .timer1 0,
   .timerSetAlarmValue .timer0 (2 * timerScale),
   .timerSetAlarmValue .timer1 (10 * timerScale),
   .timerEnableIntr .timer0,
   .timerEnableIntr .timer1,
   .timerIsrCallbackAdd .timer0 .buttonTimerCallback,
   .timerIsrCallbackAdd .timer1 .buttonEmergencyTimerCallback]

/-- The calls of `Init` in the order of the source. -/
def initCalls (buttonGpio : Nat) (systemTask : Address) : List InitCall :=
  [.setSystemTask systemTask,
   .gpioConfig (ioConf buttonGpio),
   .gpioSetIntrType .anyEdge,
   .gpioInstallIsrService,
   .gpioIsrHandlerAdd] ++ initHwTimers

/-- `ButtonHandler::Init` run to its end with nothing in between. -/
def Board.init (systemTask : Address) (board : Board) : Board :=
  (initCalls board.handler.buttonGpio systemTask).foldl (fun board call => call.exec board) board

end Motohs.Button
