import Mathlib.Data.List.Induction

/-! Machines whose steps may be disabled, and what holds over their runs. A
history rule ties the state reached to the events that led to it, so that an
invariant may speak of both. -/

namespace Lib

/-- Every item of the list is allowed after the items in front of it. -/
def EachAfter (allowed : List Item → Item → Prop) (items : List Item) : Prop :=
  ∀ past item rest, items = past ++ item :: rest → allowed past item

theorem eachAfter_nil (allowed : List Item → Item → Prop) : EachAfter allowed [] := by
  intro past item rest same
  simp at same

theorem eachAfter_concat {allowed : List Item → Item → Prop} :
    EachAfter allowed (items ++ [last]) ↔ EachAfter allowed items ∧ allowed items last := by
  constructor
  · intro each
    refine ⟨?_, each items last [] rfl⟩
    intro past item rest same
    exact each past item (rest ++ [last]) (by simp [same])
  · rintro ⟨each, final⟩ past item rest same
    rcases List.eq_nil_or_concat rest with empty | ⟨front, other, split⟩
    · subst empty
      obtain ⟨rfl, rfl⟩ := List.append_inj' same rfl |>.imp id List.singleton_inj.mp
      exact final
    · subst split
      have front : items ++ [last] = (past ++ item :: front) ++ [other] := by simpa using same
      exact each past item _ (List.append_inj' front rfl).1

theorem EachAfter.of_append {allowed : List Item → Item → Prop}
    (each : EachAfter allowed (items ++ more)) : EachAfter allowed items := by
  intro past item rest same
  exact each past item (rest ++ more) (by simp [same])

/-- What one event does to a state, `none` where the event is not enabled. -/
abbrev Machine (State : Type u) (Event : Type v) := State → Event → Option State

namespace Machine

variable {State : Type u} {Event : Type v} {machine : Machine State Event}
variable {start final state : State} {events past rest : List Event}

def run (machine : Machine State Event) (start : State) (events : List Event) : Option State :=
  events.foldlM machine start

@[simp] theorem run_nil : machine.run start [] = some start := rfl

theorem run_cons_eq_some : machine.run start (event :: events) = some final ↔
    ∃ next, machine start event = some next ∧ machine.run next events = some final :=
  Option.bind_eq_some_iff

theorem run_append :
    machine.run start (past ++ rest) = (machine.run start past).bind (machine.run · rest) :=
  List.foldlM_append

theorem run_append_eq_some : machine.run start (past ++ rest) = some final ↔
    ∃ state, machine.run start past = some state ∧ machine.run state rest = some final := by
  rw [run_append, Option.bind_eq_some_iff]

theorem run_concat_eq_some : machine.run start (past ++ [event]) = some final ↔
    ∃ state, machine.run start past = some state ∧ machine state event = some final := by
  simp [run_append_eq_some, run_cons_eq_some]

/-- `ok` holds of every event of the run in the state that event meets. -/
def EachStep (machine : Machine State Event) (start : State) (ok : State → Event → Prop)
    (events : List Event) : Prop :=
  EachAfter (fun past event => ∀ state, machine.run start past = some state → ok state event) events

/-- `good` holds of every state the run passes through, with the events before it. -/
def Along (machine : Machine State Event) (start : State) (good : List Event → State → Prop)
    (events : List Event) : Prop :=
  ∀ past rest state, events = past ++ rest → machine.run start past = some state → good past state

/-- What the start has and every permitted step keeps, every permitted run ends with. -/
theorem run_history (ok : State → Event → Prop) {motive : List Event → State → Prop}
    (initial : motive [] start)
    (preserved : ∀ past state event next, motive past state → ok state event →
      machine state event = some next → motive (past ++ [event]) next)
    (permitted : machine.EachStep start ok events)
    (ran : machine.run start events = some final) : motive events final := by
  induction events using List.reverseRecOn generalizing final with
  | nil =>
    cases ran
    exact initial
  | append_singleton past event ih =>
    obtain ⟨state, before, step⟩ := run_concat_eq_some.mp ran
    obtain ⟨earlier, here⟩ := eachAfter_concat.mp permitted
    exact preserved past state event final (ih earlier before) (here state before) step

theorem along_history (ok : State → Event → Prop) {motive : List Event → State → Prop}
    (initial : motive [] start)
    (preserved : ∀ past state event next, motive past state → ok state event →
      machine state event = some next → motive (past ++ [event]) next)
    (permitted : machine.EachStep start ok events) : machine.Along start motive events := by
  intro past rest state same ran
  subst same
  exact run_history ok initial preserved permitted.of_append ran

/-- The history rule for runs with no condition on their steps. -/
theorem run_invariant {motive : List Event → State → Prop} (initial : motive [] start)
    (preserved : ∀ past state event next, motive past state →
      machine state event = some next → motive (past ++ [event]) next)
    (ran : machine.run start events = some final) : motive events final :=
  run_history (fun _ _ => True) initial
    (fun past state event next held _ step => preserved past state event next held step)
    (fun _ _ _ _ _ _ => trivial) ran

end Machine

/-- The history rule for machines whose every step is enabled. -/
theorem foldl_history {step : State → Item → State} {motive : List Item → State → Prop}
    (initial : motive [] start)
    (preserved : ∀ past state item, motive past state → motive (past ++ [item]) (step state item))
    (items : List Item) : motive items (items.foldl step start) := by
  induction items using List.reverseRecOn with
  | nil => exact initial
  | append_singleton past item ih =>
    rw [List.foldl_append, List.foldl_cons, List.foldl_nil]
    exact preserved past _ item ih

end Lib
