import Motohs.Lib.Fifo
import Motohs.SystemTask.Message

/-! `system_task.cpp`: the queue between the interrupts and the task, and one turn of
the loop in `Run`. -/

namespace Motohs

open Lib

/-- The length that `Start` passes to `xQueueCreate`. -/
def queueLength : Nat := 10

abbrev MsgQueue := Fifo Msg queueLength

/-- The members of `SystemTask` that its code reads. `msg_queue` is null until `Start`. -/
structure SystemTask where
  msgQueue : Option MsgQueue

/-- `pdPASS` with the message at the back, or `errQUEUE_FULL` and the queue as it was. -/
def xQueueSendFromIsr (queue : MsgQueue) (message : Msg) : Bool × MsgQueue :=
  match queue.push? message with
  | some queue => (true, queue)
  | none => (false, queue)

/-- With `portMAX_DELAY` the call returns only once there is room. -/
def xQueueSend (queue : MsgQueue) (message : Msg) : Option MsgQueue := queue.push? message

/-- `none` is the timeout. -/
def xQueueReceive (queue : MsgQueue) : Option (Msg × MsgQueue) := queue.pop?

inductive PushResult where
  | returned (task : SystemTask)
  /-- Waiting for room in the queue. -/
  | blocked
  /-- The queue handle is null. -/
  | noQueue

namespace SystemTask

def xQueueCreate : SystemTask → SystemTask
  | _ => ⟨some .empty⟩

/-- The result of `xQueueSendFromISR` is not looked at. -/
def pushMessage (inIsr : Bool) (type : MsgType) (data : MsgData) (task : SystemTask) : PushResult :=
  match task.msgQueue with
  | none => .noQueue
  | some queue =>
    let message : Msg := ⟨type, data⟩
    if inIsr then .returned { task with msgQueue := some (xQueueSendFromIsr queue message).2 }
    else
      match xQueueSend queue message with
      | some queue => .returned { task with msgQueue := some queue }
      | none => .blocked

/-- What is printed for an action. -/
def processButtonEvent : MsgData → String
  | .shortClick => "Short click\n"
  | .longPress => "Long press\n"
  | .longClick => "Long Click\n"
  | .none => ""

/-- The data that one turn of the loop in `Run` hands to `ProcessButtonEvent`. -/
def turn (queue : MsgQueue) : MsgQueue × Option MsgData :=
  match xQueueReceive queue with
  | some (message, queue) =>
    if message.type = .buttonEvent then (queue, some message.data) else (queue, none)
  | none => (queue, none)

end SystemTask

end Motohs
