import Motohs.Button.Hold

/-! Clicks under contact bounce: Press, Release and timer events in any order. -/

namespace Motohs.Button

open Lib

/-- A Release here would be the first Release since some Press. -/
def FirstRelease (past : List Input) : Prop :=
  ∃ before held, past = before ++ .press :: held ∧ .release ∉ held

/-- The latest hold of the history is over and lasted so many ticks. -/
def HeldFor (past : List Input) (ticks : Nat) : Prop := LatestHold past ⟨false, ticks⟩

def isClickCall (call : PushCall) : Bool := call.data.isClick

namespace Board

def clicks (board : Board) (input : Input) : Bool := (board.pushed input).any isClickCall

/-- The calls to `PushMessage` made over a run, in order. -/
def pushedDuring (board : Board) : List Input → List PushCall
  | [] => []
  | input :: rest => (board.pushed input).toList ++ (board.step input).pushedDuring rest

theorem pushedDuring_concat (board : Board) (past : List Input) (input : Input) :
    board.pushedDuring (past ++ [input]) =
      board.pushedDuring past ++ ((board.after past).pushed input).toList := by
  induction past generalizing board with
  | nil => simp [pushedDuring, after]
  | cons first rest ih => simp [pushedDuring, ih, after]

/-- What is asked of the clicks of a run: each has its own Release and its own Press. -/
structure NoClickWithoutPress (board : Board) (inputs : List Input) : Prop where
  caused : EachAfter (fun past input => (board.after past).clicks input = true →
    input = .release ∧ FirstRelease past) inputs
  separated : ∀ past first between second rest,
    inputs = past ++ first :: between ++ second :: rest →
    (board.after past).clicks first = true →
    (board.after (past ++ first :: between)).clicks second = true → .press ∈ between
  counted : ∀ past rest, inputs = past ++ rest →
    (board.pushedDuring past).countP isClickCall ≤ past.count .press

end Board

theorem firstRelease_iff_down (past : List Input) :
    FirstRelease past ↔ (Hold.idle.after past).down = true := by
  constructor
  · rintro ⟨before, held, same, noRelease⟩
    have keeps (hold : Hold) (down : hold.down = true) (items : List Input)
        (quiet : .release ∉ items) : (hold.after items).down = true := by
      induction items generalizing hold with
      | nil => exact down
      | cons input rest ih =>
        simp only [List.mem_cons, not_or] at quiet
        refine ih (hold.step input) ?_ quiet.2
        cases input with
        | ticks count => exact down
        | event event => cases event <;> simp_all [Hold.step]
    rw [same, Hold.after_append, Hold.after_cons]
    exact keeps _ rfl held noRelease
  · intro down
    have latest := latestHold_after past
    generalize Hold.idle.after past = hold at down latest
    cases latest with
    | never _ => cases down
    | @down held before _ noRelease => exact ⟨before, held, rfl, noRelease⟩
    | up _ _ _ => cases down

theorem Tracks.clicks_iff (tracks : Tracks systemTask hold board) (input : Input) :
    board.clicks input = true ↔ input = .release ∧ hold.ticks ≠ 2 * timerScale := by
  cases input with
  | ticks count => simp [Board.clicks, Board.pushed]
  | event event =>
    cases event with
    | press => simp [Board.clicks, Board.pushed, Board.handleInterrupt]
    | emergencyTimer => simp [Board.clicks, Board.pushed, Board.handleInterrupt]
    | timer =>
      simp [Board.clicks, tracks.pushed_timer, isClickCall, ButtonActions.isClick]
    | release =>
      rw [Board.clicks, tracks.pushed_release]
      unfold clickFor
      split
      · simp [isClickCall, ButtonActions.isClick]; omega
      · split
        · simp [isClickCall, ButtonActions.isClick]; omega
        · simp; omega

/-- A Release that is not the first since its Press pushes a click exactly when
the hold it finds on the stopped timer is not of two seconds to the tick. -/
private theorem caused_iff (tracks : Tracks systemTask (Hold.idle.after past) board) :
    (board.clicks input = true → input = .release ∧ FirstRelease past) ↔
      (input = .release → FirstRelease past ∨ HeldFor past (2 * timerScale)) := by
  rw [tracks.clicks_iff]
  constructor
  · intro caused release
    by_cases threshold : (Hold.idle.after past).ticks = 2 * timerScale
    · cases down : (Hold.idle.after past).down with
      | true => exact .inl ((firstRelease_iff_down past).mpr down)
      | false =>
        right
        have same : Hold.idle.after past = ⟨false, 2 * timerScale⟩ := by
          rw [← threshold, ← down]
        rw [HeldFor, ← same]
        exact latestHold_after past
    · exact .inl (caused ⟨release, threshold⟩).2
  · rintro known ⟨release, off⟩
    rcases known release with first | held
    · exact ⟨release, first⟩
    · rw [LatestHold.unique held] at off
      exact absurd rfl off

private theorem press_between {before held : List Input}
    (same : past ++ .release :: between = before ++ .press :: held)
    (noRelease : .release ∉ held) : .press ∈ between := by
  rcases List.append_eq_append_iff.mp same with ⟨front, _, tail⟩ | ⟨front, _, tail⟩
  · cases front with
    | nil => simp at tail
    | cons first front =>
      obtain ⟨_, tail⟩ := List.cons.inj tail
      simp [tail]
  · cases front with
    | nil => simp at tail
    | cons first front =>
      obtain ⟨_, tail⟩ := List.cons.inj tail
      simp [tail] at noRelease

private theorem separated_of_caused {board : Board}
    (caused : EachAfter (fun past input => (board.after past).clicks input = true →
      input = .release ∧ FirstRelease past) inputs) :
    ∀ past first between second rest, inputs = past ++ first :: between ++ second :: rest →
      (board.after past).clicks first = true →
      (board.after (past ++ first :: between)).clicks second = true → .press ∈ between := by
  intro past first between second rest same earlier later
  have release := (caused past first (between ++ second :: rest) (by simp [same]) earlier).1
  obtain ⟨before, held, split, noRelease⟩ := (caused _ second rest same later).2
  subst release
  exact press_between split noRelease

/-- While the button is down there is a Press to spare for the click to come. -/
private theorem counted_of_caused {board : Board}
    (caused : EachAfter (fun past input => (board.after past).clicks input = true →
      input = .release ∧ FirstRelease past) inputs) :
    (board.pushedDuring inputs).countP isClickCall + (Hold.idle.after inputs).down.toNat ≤
      inputs.count .press := by
  induction inputs using List.reverseRecOn with
  | nil => simp [Board.pushedDuring, Hold.after, Hold.idle]
  | append_singleton past input ih =>
    obtain ⟨earlier, here⟩ := eachAfter_concat.mp caused
    have bound := ih earlier
    have count : (board.pushedDuring (past ++ [input])).countP isClickCall =
        (board.pushedDuring past).countP isClickCall +
          if (board.after past).clicks input then 1 else 0 := by
      rw [Board.pushedDuring_concat, List.countP_append, Board.clicks]
      cases (board.after past).pushed input <;> simp [List.countP_cons]
    have hold : Hold.idle.after (past ++ [input]) = (Hold.idle.after past).step input := by
      rw [Hold.after_append]
      rfl
    rw [count, hold, List.count_append]
    by_cases click : (board.after past).clicks input = true
    · obtain ⟨release, first⟩ := here click
      rw [firstRelease_iff_down] at first
      subst release
      simp only [first, Bool.toNat_true] at bound
      simp [click, Hold.step]
      omega
    · cases input with
      | ticks count => simpa [click, Hold.step] using bound
      | event event =>
        cases event with
        | press => simp [click, Hold.step]; omega
        | release => simp [click, Hold.step]; omega
        | timer => simpa [click, Hold.step] using bound
        | emergencyTimer => simpa [click, Hold.step] using bound

/-- Clicks are tied to presses in a run just when every Release of the run is
either the first since some Press or follows a hold of two seconds to the tick,
for which no Release pushes anything. -/
theorem noClickWithoutPress_iff (systemTask : Address) (board : Board) (inputs : List Input) :
    (board.init systemTask).NoClickWithoutPress inputs ↔
      EachAfter (fun past input => input = .release →
        FirstRelease past ∨ HeldFor past (2 * timerScale)) inputs := by
  have start := tracks_init systemTask board
  constructor
  · intro tied past input rest same
    exact (caused_iff (start.after past)).mp (tied.caused past input rest same)
  · intro known
    have caused : EachAfter (fun past input =>
        ((board.init systemTask).after past).clicks input = true →
          input = .release ∧ FirstRelease past) inputs :=
      fun past input rest same => (caused_iff (start.after past)).mpr (known past input rest same)
    refine ⟨caused, separated_of_caused caused, ?_⟩
    intro past rest same
    subst same
    have bound := counted_of_caused caused.of_append
    omega

/-- A Release with no Press before it is pushed as a short click. -/
theorem orphan_release_clicks :
    ¬ ((Board.powerOn 0).init 1).NoClickWithoutPress [.release] := by
  intro tied
  have clicks : ((Board.powerOn 0).init 1).clicks .release = true :=
    ((tracks_init 1 (.powerOn 0)).clicks_iff .release).mpr ⟨rfl, by decide⟩
  obtain ⟨_, before, held, same, _⟩ := tied.caused [] .release [] rfl clicks
  simp at same

end Motohs.Button
