import Motohs.Lib.Machine
import Motohs.SystemTask.Task

/-! From `PushMessage` to `ProcessButtonEvent`: what happens to the actions on the way. -/

namespace Motohs.SystemTask

open Lib

inductive DeliveryStep where
  /-- A call to `PushMessage`, from an interrupt or from a task, that returns. -/
  | push (inIsr : Bool) (message : Msg)
  /-- A turn of the loop in `Run`. -/
  | receive
  /-- `xQueueReceive` gives up waiting. -/
  | timeout
  deriving DecidableEq, Repr

structure Delivery where
  task : SystemTask
  /-- The actions passed to `ProcessButtonEvent`, and what it printed for them. -/
  processed : List ButtonActions
  console : List String
  /-- The actions for which `PushMessage` has returned. -/
  returned : List ButtonActions

namespace Delivery

def start : Delivery := ⟨xQueueCreate ⟨none⟩, [], [], []⟩

def step : Machine Delivery DeliveryStep
  | delivery, .push inIsr message =>
    match delivery.task.pushMessage inIsr message.type message.data with
    | .returned task => some { delivery with task, returned := delivery.returned ++ [message.data] }
    | .blocked | .noQueue => none
  | delivery, .receive =>
    delivery.task.msgQueue.map fun queue =>
      let (queue, data?) := turn queue
      { delivery with
        task := ⟨some queue⟩
        processed := delivery.processed ++ data?.toList
        console := delivery.console ++ data?.toList.map processButtonEvent }
  | delivery, .timeout => some delivery

/-- Nothing lost, nothing twice, nothing out of order. -/
def Conserved (delivery : Delivery) : Prop :=
  ∃ queue, delivery.task.msgQueue = some queue ∧
    delivery.processed ++ queue.items.map Msg.data = delivery.returned

/-- The condition on a step: an interrupt pushes only while the queue has room. -/
def RoomForIsr (delivery : Delivery) (step : DeliveryStep) : Prop :=
  ∀ message queue, step = .push true message → delivery.task.msgQueue = some queue → ¬ queue.Full

end Delivery

open Delivery

theorem turn_conserves (queue : MsgQueue) :
    (turn queue).2.toList ++ (turn queue).1.items.map Msg.data = queue.items.map Msg.data := by
  unfold turn xQueueReceive
  cases popped : queue.pop? with
  | none => rfl
  | some received =>
    obtain ⟨⟨type, data⟩, rest⟩ := received
    cases type
    simp [Fifo.pop?_eq_some popped]

/-- A push from a task waits for room, so it never loses its message. -/
theorem pushMessage_task (queue : MsgQueue) (message : Msg) :
    pushMessage false message.type message.data ⟨some queue⟩ =
      match queue.push? message with
      | some queue => .returned ⟨some queue⟩
      | none => .blocked := rfl

/-- A push from an interrupt returns in any case; when the queue is full it has no effect. -/
theorem pushMessage_isr (queue : MsgQueue) (message : Msg) :
    pushMessage true message.type message.data ⟨some queue⟩ =
      .returned ⟨some ((queue.push? message).getD queue)⟩ := by
  simp only [pushMessage, xQueueSendFromIsr, ↓reduceIte]
  cases queue.push? message <;> rfl

theorem step_conserved (conserved : Conserved delivery) (room : RoomForIsr delivery event)
    (step : Delivery.step delivery event = some next) : Conserved next := by
  obtain ⟨⟨_⟩, processed, console, returned⟩ := delivery
  obtain ⟨queue, rfl, sequence⟩ := conserved
  change processed ++ queue.items.map Msg.data = returned at sequence
  subst sequence
  cases event with
  | timeout =>
    obtain rfl := Option.some.inj step
    exact ⟨queue, rfl, rfl⟩
  | receive =>
    obtain rfl := Option.some.inj step
    exact ⟨(turn queue).1, rfl, by rw [List.append_assoc, turn_conserves]⟩
  | push inIsr message =>
    cases inIsr with
    | false =>
      simp only [Delivery.step, pushMessage_task] at step
      cases sent : queue.push? message with
      | none => simp [sent] at step
      | some longer =>
        simp only [sent, Option.some.injEq] at step
        subst step
        exact ⟨longer, rfl, by simp [Fifo.push?_eq_some sent]⟩
    | true =>
      simp only [Delivery.step, pushMessage_isr] at step
      cases sent : queue.push? message with
      | none => exact absurd (Fifo.push?_eq_none_iff.mp sent) (room message queue rfl rfl)
      | some longer =>
        simp only [sent, Option.getD_some, Option.some.injEq] at step
        subst step
        exact ⟨longer, rfl, by simp [Fifo.push?_eq_some sent]⟩

/-- The push that finds the queue full is counted as returned and is nowhere else. -/
theorem step_dropped (conserved : Conserved delivery) (full : ¬ RoomForIsr delivery event) :
    ∃ next, Delivery.step delivery event = some next ∧ ¬ Conserved next := by
  obtain ⟨⟨_⟩, processed, console, returned⟩ := delivery
  obtain ⟨queue, rfl, sequence⟩ := conserved
  change processed ++ queue.items.map Msg.data = returned at sequence
  subst sequence
  simp only [RoomForIsr, not_forall, not_not] at full
  obtain ⟨message, other, rfl, same, full⟩ := full
  obtain rfl := Option.some.inj same
  have refused : queue.push? message = none := Fifo.push?_eq_none_iff.mpr full
  refine ⟨_, by simp only [Delivery.step, pushMessage_isr, refused]; rfl, ?_⟩
  rintro ⟨kept, same, sequence⟩
  obtain rfl := Option.some.inj same
  have lengths := congrArg List.length sequence
  simp at lengths

/-- In every state of a run the processed actions and then the queued ones are
those for which `PushMessage` has returned, just when no interrupt of the run
pushes into a full queue. -/
theorem delivery_conserved_iff (steps : List DeliveryStep) :
    Delivery.step.Along .start (fun _ delivery => Conserved delivery) steps ↔
      Delivery.step.EachStep .start RoomForIsr steps := by
  constructor
  · intro conserved past event rest same delivery before
    by_contra full
    have here := conserved past (event :: rest) delivery same before
    obtain ⟨next, step, lost⟩ := step_dropped here full
    refine lost (conserved (past ++ [event]) rest next (by simp [same]) ?_)
    exact Machine.run_concat_eq_some.mpr ⟨delivery, before, step⟩
  · intro room
    exact Machine.along_history RoomForIsr (motive := fun _ delivery => Conserved delivery)
      ⟨.empty, rfl, rfl⟩
      (fun _ _ _ _ conserved ok step => step_conserved conserved ok step) room

/-- Eleven clicks pushed by interrupts before the task runs: the last one is lost. -/
theorem eleventh_push_lost :
    ¬ Delivery.step.Along .start (fun _ delivery => Conserved delivery)
      (List.replicate 11 (.push true ⟨.buttonEvent, .shortClick⟩)) := by
  intro conserved
  have counted : (Delivery.step.run .start
      (List.replicate 11 (.push true ⟨.buttonEvent, .shortClick⟩))).map
        (fun delivery => (delivery.processed.length, delivery.returned.length)) = some (0, 11) := rfl
  obtain ⟨final, ran, same⟩ := Option.map_eq_some_iff.mp counted
  obtain ⟨processed, returned⟩ := Prod.mk.inj same
  obtain ⟨queue, _, sequence⟩ := conserved _ [] final (List.append_nil _).symm ran
  have lengths := congrArg List.length sequence
  have bounded := queue.bounded
  simp [processed, returned] at lengths
  simp [lengths, queueLength] at bounded

end Motohs.SystemTask
