/-! What the button handler tells the system task: the messages of `system_task.hpp`
and the actions of `button_actions.hpp`. -/

namespace Motohs

inductive ButtonActions where
  | none
  | shortClick
  | longPress
  | longClick
  deriving DecidableEq, Repr

/-- The two actions a Release stands for. -/
def ButtonActions.isClick : ButtonActions → Bool
  | .shortClick | .longClick => true
  | .none | .longPress => false

inductive MsgType where
  | buttonEvent
  deriving DecidableEq, Repr

/-- `std::variant<Controllers::ButtonActions>`, a variant of one alternative. -/
abbrev MsgData := ButtonActions

structure Msg where
  type : MsgType
  data : MsgData
  deriving DecidableEq, Repr

/-- Where an object lives. A null pointer is the `none` of `Option Address`. -/
abbrev Address := Nat

/-- One call `system_task->PushMessage(type, data)`, with the pointer it goes through. -/
structure PushCall where
  receiver : Option Address
  type : MsgType
  data : MsgData
  deriving DecidableEq, Repr

end Motohs
