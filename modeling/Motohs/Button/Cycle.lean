import Motohs.Button.Hold

/-! Clean press cycles: every Press is followed by its Release. How the Release of
each cycle is classified, over runs of any number of cycles. -/

namespace Motohs.Button

open Lib

/-- What may happen between two pin events: time, and the two timer interrupts. -/
inductive Between where
  | ticks (count : Nat)
  | timer
  | emergencyTimer
  deriving DecidableEq, Repr

def Between.input : Between → Input
  | .ticks count => .ticks count
  | .timer => .event .timer
  | .emergencyTimer => .event .emergencyTimer

/-- A Press, what happens in the hold, its Release, and what happens before the next Press. -/
structure Cycle where
  hold : List Between
  idle : List Between
  deriving DecidableEq, Repr

namespace Cycle

/-- The ticks from the Press to the Release. -/
def held (cycle : Cycle) : Nat := ticksOf (cycle.hold.map Between.input)

/-- The cycle up to its Release. -/
def opening (cycle : Cycle) : List Input := .press :: cycle.hold.map Between.input

def inputs (cycle : Cycle) : List Input :=
  cycle.opening ++ .release :: cycle.idle.map Between.input

end Cycle

def shortOrLong (held : Nat) : ButtonActions :=
  if held < 2 * timerScale then .shortClick else .longClick

/-- The Release that ends each cycle pushes one click, the one its hold calls for. -/
def ClassifiedOnce (systemTask : Address) (board : Board) : List Cycle → Prop :=
  EachAfter fun past cycle =>
    ((board.init systemTask).after (past.flatMap Cycle.inputs ++ cycle.opening)).pushed .release =
      some ⟨some systemTask, .buttonEvent, shortOrLong cycle.held⟩

/-- Whatever came before, the hold that a cycle opens is as long as its own ticks. -/
theorem Cycle.hold_opening (cycle : Cycle) (hold : Hold) :
    hold.after cycle.opening = ⟨true, cycle.held⟩ := by
  have quiet (event : Events) (pin : event = .press ∨ event = .release) :
      .event event ∉ cycle.hold.map Between.input := by
    intro member
    obtain ⟨item, _, same⟩ := List.mem_map.mp member
    rcases pin with rfl | rfl <;> cases item <;> cases same
  have within := Hold.after_held _ (quiet .press (.inl rfl)) (quiet .release (.inr rfl)) 0
  rw [Nat.zero_add] at within
  exact within

theorem pushed_release_cycle (systemTask : Address) (board : Board) (past : List Input)
    (cycle : Cycle) :
    ((board.init systemTask).after (past ++ cycle.opening)).pushed .release =
      (clickFor cycle.held).map (⟨some systemTask, .buttonEvent, ·⟩) := by
  have tracks := (tracks_init systemTask board).after (past ++ cycle.opening)
  rw [Hold.after_append, cycle.hold_opening] at tracks
  exact tracks.pushed_release

theorem clickFor_eq_shortOrLong : clickFor held = some (shortOrLong held) ↔ held ≠ 2 * timerScale := by
  unfold clickFor shortOrLong
  split
  · simp; omega
  · split
    · simp; omega
    · simp; omega

/-- Each cycle of a run is classified exactly once, and rightly, just when no
hold of the run ends on the tick of the threshold itself. -/
theorem classifiedOnce_iff (systemTask : Address) (board : Board) (cycles : List Cycle) :
    ClassifiedOnce systemTask board cycles ↔ ∀ cycle ∈ cycles, cycle.held ≠ 2 * timerScale := by
  constructor
  · intro classified cycle member
    obtain ⟨past, rest, split⟩ := List.append_of_mem member
    have pushed := classified past cycle rest split
    simp only [pushed_release_cycle] at pushed
    obtain ⟨action, click, same⟩ := Option.map_eq_some_iff.mp pushed
    have same : action = shortOrLong cycle.held := by simpa using same
    exact clickFor_eq_shortOrLong.mp (click.trans (congrArg some same))
  · intro off past cycle rest split
    have click := clickFor_eq_shortOrLong.mpr (off cycle (by simp [split]))
    simp only [pushed_release_cycle, click, Option.map_some]

/-- A hold of two seconds to the tick: the Release pushes nothing. -/
theorem two_seconds_unclassified :
    ¬ ClassifiedOnce 1 (.powerOn 0) [⟨[.ticks 10000000], [.ticks 1]⟩] := by
  intro classified
  have pushed := classified [] _ [] rfl
  have silent : clickFor (Cycle.held ⟨[.ticks 10000000], [.ticks 1]⟩) = none := by decide
  simp only [pushed_release_cycle, silent, Option.map_none] at pushed
  cases pushed

end Motohs.Button
