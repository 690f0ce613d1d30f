import Motohs.Lib.TickTimer
import Motohs.SystemTask.Message

/-! The button handler object together with the hardware it drives: the GPIO pin
and the two timers of `TIMER_GROUP_0`. Every driver call of `button.cpp` is one
function on this state. -/

namespace Motohs.Button

open Lib

/-- `TIMER_BASE_CLK`, the APB clock in ticks per second. -/
def timerBaseClk : Nat := 80000000

def timerDivider : Nat := 16

/-- `TIMER_SCALE`: timer ticks per second, 5,000,000. -/
def timerScale : Nat := timerBaseClk / timerDivider

inductive TimerIdx where
  | timer0
  | timer1
  deriving DecidableEq, Repr

inductive TimerCallback where
  | buttonTimerCallback
  | buttonEmergencyTimerCallback
  deriving DecidableEq, Repr

abbrev HwTimer := TickTimer TimerCallback

/-- The fields of `timer_config_t` that vary here. The counter direction is
always up and the alarm never reloads, as `TickTimer` has it. -/
structure TimerConfig where
  divider : Nat
  counterEn : Bool
  alarmEn : Bool
  deriving DecidableEq, Repr

inductive GpioMode where
  | input
  deriving DecidableEq, Repr

inductive GpioIntrType where
  | disable
  | anyEdge
  deriving DecidableEq, Repr

structure GpioConfig where
  pinBitMask : UInt64
  mode : GpioMode
  pullUpEn : Bool
  pullDownEn : Bool
  intrType : GpioIntrType
  deriving DecidableEq

structure Gpio where
  config : Option GpioConfig
  intrType : GpioIntrType
  isrService : Bool
  /-- `ButtonPinInterrupt` is registered: pin interrupts are delivered. -/
  isrHandler : Bool
  deriving DecidableEq

/-- The data members of `ButtonHandler` that its code reads. -/
structure ButtonHandler where
  buttonGpio : Nat
  systemTask : Option Address
  deriving DecidableEq, Repr

structure Board where
  handler : ButtonHandler
  gpio : Gpio
  timer0 : HwTimer
  timer1 : HwTimer
  deriving DecidableEq

namespace Board

/-- The board at reset: no timer is initialized and no interrupt can be delivered. -/
def powerOn (buttonGpio : Nat) : Board where
  handler := ⟨buttonGpio, none⟩
  gpio := ⟨none, .disable, false, false⟩
  timer0 := ⟨false, 0, false, 0, false, 0, false, none⟩
  timer1 := ⟨false, 0, false, 0, false, 0, false, none⟩

def timer (board : Board) : TimerIdx → HwTimer
  | .timer0 => board.timer0
  | .timer1 => board.timer1

def onTimer (index : TimerIdx) (effect : HwTimer → HwTimer) (board : Board) : Board :=
  match index with
  | .timer0 => { board with timer0 := effect board.timer0 }
  | .timer1 => { board with timer1 := effect board.timer1 }

def setSystemTask (systemTask : Address) (board : Board) : Board :=
  { board with handler := { board.handler with systemTask := some systemTask } }

def gpioConfig (config : GpioConfig) (board : Board) : Board :=
  { board with gpio := { board.gpio with config := some config, intrType := config.intrType } }

def gpioSetIntrType (intrType : GpioIntrType) (board : Board) : Board :=
  { board with gpio := { board.gpio with intrType } }

def gpioInstallIsrService (board : Board) : Board :=
  { board with gpio := { board.gpio with isrService := true } }

/-- Fails without the interrupt service. -/
def gpioIsrHandlerAdd (board : Board) : Board :=
  { board with gpio := { board.gpio with
      isrHandler := board.gpio.isrHandler || board.gpio.isrService } }

def timerInit (index : TimerIdx) (config : TimerConfig) (board : Board) : Board :=
  board.onTimer index (TickTimer.init (timerBaseClk / config.divider) config.counterEn config.alarmEn)

def timerSetCounterValue (index : TimerIdx) (value : Nat) (board : Board) : Board :=
  board.onTimer index (TickTimer.setCounterValue value)

def timerSetAlarmValue (index : TimerIdx) (value : Nat) (board : Board) : Board :=
  board.onTimer index (TickTimer.setAlarmValue value)

def timerSetAlarm (index : TimerIdx) (enabled : Bool) (board : Board) : Board :=
  board.onTimer index (TickTimer.setAlarm enabled)

def timerEnableIntr (index : TimerIdx) (board : Board) : Board :=
  board.onTimer index TickTimer.enableIntr

def timerIsrCallbackAdd (index : TimerIdx) (callback : TimerCallback) (board : Board) : Board :=
  board.onTimer index (TickTimer.isrCallbackAdd callback)

def timerStart (index : TimerIdx) (board : Board) : Board :=
  board.onTimer index TickTimer.start

def timerPause (index : TimerIdx) (board : Board) : Board :=
  board.onTimer index TickTimer.pause

/-- `timer_get_counter_time_sec(.., &value)`: a refused call leaves `value` as it was. -/
def timerGetCounterTimeSec (index : TimerIdx) (value : ℚ) (board : Board) : ℚ :=
  (board.timer index).counterTimeSec.getD value

/-- Both timers of the group run off one clock. -/
def advance (ticks : Nat) (board : Board) : Board :=
  { board with
    timer0 := board.timer0.advance ticks
    timer1 := board.timer1.advance ticks }

end Board

end Motohs.Button
