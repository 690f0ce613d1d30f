import Mathlib.Data.List.Basic

/-! Regular expressions with groups, matched the way backtracking engines do: choices are
tried in order, and given up when what comes after them fails. -/

namespace Lib

inductive Regex (Symbol : Type u) where
  /-- One symbol of a class. -/
  | one (accepts : Symbol → Bool)
  /-- As many symbols of a class as possible, fewer if need be. -/
  | many (accepts : Symbol → Bool)
  /-- `$`: the end, or in front of a newline that ends the text. -/
  | finish (newline : Symbol → Bool)
  | seq (first second : Regex Symbol)
  | alt (first second : Regex Symbol)
  /-- `?`, rather there than not. -/
  | opt (body : Regex Symbol)
  | group (index : Nat) (body : Regex Symbol)

namespace Regex

variable {Symbol : Type u} {Result : Type v}

/-- What is still to be matched, and the groups so far, the latest first. -/
structure Attempt (Symbol : Type u) where
  rest : List Symbol
  groups : List (Nat × List Symbol)

/-- What a group has matched, the last time that it has. -/
def Attempt.group? (done : Attempt Symbol) (index : Nat) : Option (List Symbol) := done.groups.lookup index

/-- The first of two choices that succeeds. -/
def orElse (first second : Option Result) : Option Result :=
  match first with
  | some result => some result
  | none => second

def runMany (accepts : Symbol → Bool) (groups : List (Nat × List Symbol))
    (next : Attempt Symbol → Option Result) : List Symbol → Option Result
  | [] => next ⟨[], groups⟩
  | symbol :: rest =>
    if accepts symbol then orElse (runMany accepts groups next rest) (next ⟨symbol :: rest, groups⟩)
    else next ⟨symbol :: rest, groups⟩

def ends (newline : Symbol → Bool) : List Symbol → Bool
  | [] => true
  | [last] => newline last
  | _ => false

/-- Matched from here, with what comes after it. -/
def run : Regex Symbol → Attempt Symbol → (Attempt Symbol → Option Result) → Option Result
  | .one accepts, attempt, next =>
    match attempt.rest with
    | [] => none
    | symbol :: rest => if accepts symbol then next ⟨rest, attempt.groups⟩ else none
  | .many accepts, attempt, next => runMany accepts attempt.groups next attempt.rest
  | .finish newline, attempt, next => if ends newline attempt.rest then next attempt else none
  | .seq first second, attempt, next => first.run attempt fun middle => second.run middle next
  | .alt first second, attempt, next => orElse (first.run attempt next) (second.run attempt next)
  | .opt body, attempt, next => orElse (body.run attempt next) (next attempt)
  | .group index body, attempt, next => body.run attempt fun done =>
      next ⟨done.rest, (index, attempt.rest.take (attempt.rest.length - done.rest.length)) :: done.groups⟩

/-- A match at the front of a text. -/
def match? (regex : Regex Symbol) (text : List Symbol) : Option (Attempt Symbol) :=
  regex.run ⟨text, []⟩ some

/-- All the ways to match, in no order. -/
inductive Matches : Regex Symbol → Attempt Symbol → Attempt Symbol → Prop where
  | one (accepted : accepts symbol = true) : Matches (.one accepts) ⟨symbol :: rest, groups⟩ ⟨rest, groups⟩
  | many (accepted : ∀ symbol ∈ front, accepts symbol = true) :
      Matches (.many accepts) ⟨front ++ rest, groups⟩ ⟨rest, groups⟩
  | finish (ended : ends newline rest = true) : Matches (.finish newline) ⟨rest, groups⟩ ⟨rest, groups⟩
  | seq (front : Matches first attempt middle) (back : Matches second middle done) :
      Matches (.seq first second) attempt done
  | altFirst (taken : Matches first attempt done) : Matches (.alt first second) attempt done
  | altSecond (taken : Matches second attempt done) : Matches (.alt first second) attempt done
  | present (taken : Matches body attempt done) : Matches (.opt body) attempt done
  | absent : Matches (.opt body) attempt attempt
  | group (taken : Matches body attempt ⟨rest, groups⟩) :
      Matches (.group index body) attempt
        ⟨rest, (index, attempt.rest.take (attempt.rest.length - rest.length)) :: groups⟩

theorem orElse_eq_none_iff {first second : Option Result} :
    orElse first second = none ↔ first = none ∧ second = none := by
  cases first <;> simp [orElse]

theorem of_orElse {first second : Option Result} (found : orElse first second = some result) :
    first = some result ∨ second = some result := by
  cases first with
  | none => exact .inr found
  | some _ => exact .inl found

theorem runMany_eq_none_iff {next : Attempt Symbol → Option Result} :
    runMany accepts groups next text = none ↔ ∀ front rest, text = front ++ rest →
      (∀ symbol ∈ front, accepts symbol = true) → next ⟨rest, groups⟩ = none := by
  induction text with
  | nil =>
    constructor
    · intro failed front rest same _
      obtain ⟨_, rfl⟩ := List.append_eq_nil_iff.mp same.symm
      exact failed
    · intro failed
      exact failed [] [] rfl (by simp)
  | cons symbol text ih =>
    rw [runMany]
    constructor
    · intro failed front rest same accepted
      cases front with
      | nil =>
        cases same
        split at failed
        · exact (orElse_eq_none_iff.mp failed).2
        · exact failed
      | cons first front =>
        cases same
        rw [if_pos (accepted _ List.mem_cons_self)] at failed
        exact ih.mp (orElse_eq_none_iff.mp failed).1 front rest rfl
          fun other member => accepted other (List.mem_cons_of_mem _ member)
    · intro failed
      have here := failed [] (symbol :: text) rfl (by simp)
      split
      · rename_i accepted
        refine orElse_eq_none_iff.mpr ⟨ih.mpr ?_, here⟩
        intro front rest same others
        exact failed (symbol :: front) rest (by rw [same]; rfl) (by simpa [accepted] using others)
      · exact here

theorem of_runMany {next : Attempt Symbol → Option Result}
    (found : runMany accepts groups next text = some result) : ∃ front rest, text = front ++ rest ∧
      (∀ symbol ∈ front, accepts symbol = true) ∧ next ⟨rest, groups⟩ = some result := by
  induction text with
  | nil => exact ⟨[], [], rfl, by simp, found⟩
  | cons symbol text ih =>
    rw [runMany] at found
    split at found
    · rename_i accepted
      rcases of_orElse found with more | here
      · obtain ⟨front, rest, rfl, others, found⟩ := ih more
        exact ⟨symbol :: front, rest, rfl, by simpa [accepted] using others, found⟩
      · exact ⟨[], _, rfl, by simp, here⟩
    · exact ⟨[], _, rfl, by simp, found⟩

/-- It fails when every way to match fails. -/
theorem run_eq_none_iff {regex : Regex Symbol} {next : Attempt Symbol → Option Result} :
    regex.run attempt next = none ↔ ∀ done, Matches regex attempt done → next done = none := by
  induction regex generalizing attempt next with
  | one accepts =>
    obtain ⟨text, groups⟩ := attempt
    constructor
    · intro failed done matched
      cases matched with
      | one accepted => simpa [run, accepted] using failed
    · intro failed
      cases text with
      | nil => rfl
      | cons symbol rest =>
        change (if accepts symbol then next ⟨rest, groups⟩ else none) = none
        split
        · exact failed _ (.one ‹_›)
        · rfl
  | many accepts =>
    obtain ⟨text, groups⟩ := attempt
    rw [run, runMany_eq_none_iff]
    constructor
    · intro failed done matched
      cases matched with
      | many accepted => exact failed _ _ rfl accepted
    · rintro failed front rest rfl accepted
      exact failed _ (.many accepted)
  | finish newline =>
    obtain ⟨text, groups⟩ := attempt
    rw [run]
    constructor
    · intro failed done matched
      cases matched with
      | finish ended => rwa [if_pos ended] at failed
    · intro failed
      split
      · exact failed _ (.finish ‹_›)
      · rfl
  | seq first second firstIh secondIh =>
    rw [run, firstIh]
    constructor
    · intro failed done matched
      cases matched with
      | seq front back => exact secondIh.mp (failed _ front) _ back
    · intro failed middle front
      exact secondIh.mpr fun done back => failed done (.seq front back)
  | alt first second firstIh secondIh =>
    rw [run, orElse_eq_none_iff, firstIh, secondIh]
    constructor
    · rintro ⟨firstFailed, secondFailed⟩ done matched
      cases matched with
      | altFirst taken => exact firstFailed done taken
      | altSecond taken => exact secondFailed done taken
    · intro failed
      exact ⟨fun done taken => failed done (.altFirst taken), fun done taken => failed done (.altSecond taken)⟩
  | opt body ih =>
    rw [run, orElse_eq_none_iff, ih]
    constructor
    · rintro ⟨failed, skipped⟩ done matched
      cases matched with
      | present taken => exact failed done taken
      | absent => exact skipped
    · intro failed
      exact ⟨fun done taken => failed done (.present taken), failed attempt .absent⟩
  | group index body ih =>
    rw [run, ih]
    constructor
    · intro failed done matched
      cases matched with
      | group taken => exact failed _ taken
    · intro failed done taken
      exact failed _ (.group taken)

/-- It succeeds by one of the ways to match. -/
theorem of_run {regex : Regex Symbol} {next : Attempt Symbol → Option Result}
    (found : regex.run attempt next = some result) :
    ∃ done, Matches regex attempt done ∧ next done = some result := by
  induction regex generalizing attempt next with
  | one accepts =>
    obtain ⟨text, groups⟩ := attempt
    cases text with
    | nil => cases found
    | cons symbol rest =>
      change (if accepts symbol then next ⟨rest, groups⟩ else none) = some result at found
      split at found
      · exact ⟨_, .one ‹_›, found⟩
      · cases found
  | many accepts =>
    obtain ⟨text, groups⟩ := attempt
    obtain ⟨front, rest, rfl, accepted, found⟩ := of_runMany found
    exact ⟨_, .many accepted, found⟩
  | finish newline =>
    rw [run] at found
    split at found
    · exact ⟨_, .finish ‹_›, found⟩
    · cases found
  | seq first second firstIh secondIh =>
    obtain ⟨middle, front, found⟩ := firstIh found
    obtain ⟨done, back, found⟩ := secondIh found
    exact ⟨done, .seq front back, found⟩
  | alt first second firstIh secondIh =>
    rcases of_orElse found with taken | taken
    · obtain ⟨done, matched, found⟩ := firstIh taken
      exact ⟨done, .altFirst matched, found⟩
    · obtain ⟨done, matched, found⟩ := secondIh taken
      exact ⟨done, .altSecond matched, found⟩
  | opt body ih =>
    rcases of_orElse found with taken | skipped
    · obtain ⟨done, matched, found⟩ := ih taken
      exact ⟨done, .present matched, found⟩
    · exact ⟨attempt, .absent, skipped⟩
  | group index body ih =>
    obtain ⟨done, matched, found⟩ := ih found
    exact ⟨_, .group matched, found⟩

theorem matches_one_iff {text : List Symbol} : Matches (.one accepts) ⟨text, groups⟩ done ↔
    ∃ symbol rest, text = symbol :: rest ∧ accepts symbol = true ∧ done = ⟨rest, groups⟩ := by
  constructor
  · intro matched
    cases matched with
    | one accepted => exact ⟨_, _, rfl, accepted, rfl⟩
  · rintro ⟨symbol, rest, rfl, accepted, rfl⟩
    exact .one accepted

theorem matches_many_iff {text : List Symbol} : Matches (.many accepts) ⟨text, groups⟩ done ↔
    ∃ front rest, text = front ++ rest ∧ (∀ symbol ∈ front, accepts symbol = true) ∧ done = ⟨rest, groups⟩ := by
  constructor
  · intro matched
    cases matched with
    | many accepted => exact ⟨_, _, rfl, accepted, rfl⟩
  · rintro ⟨front, rest, rfl, accepted, rfl⟩
    exact .many accepted

theorem matches_finish_iff : Matches (.finish newline) attempt done ↔
    ends newline attempt.rest = true ∧ done = attempt := by
  obtain ⟨text, groups⟩ := attempt
  constructor
  · intro matched
    cases matched with
    | finish ended => exact ⟨ended, rfl⟩
  · rintro ⟨ended, rfl⟩
    exact .finish ended

theorem matches_seq_iff {first second : Regex Symbol} : Matches (.seq first second) attempt done ↔
    ∃ middle, Matches first attempt middle ∧ Matches second middle done := by
  constructor
  · intro matched
    cases matched with
    | seq front back => exact ⟨_, front, back⟩
  · rintro ⟨middle, front, back⟩
    exact .seq front back

theorem matches_alt_iff {first second : Regex Symbol} : Matches (.alt first second) attempt done ↔
    Matches first attempt done ∨ Matches second attempt done := by
  constructor
  · intro matched
    cases matched with
    | altFirst taken => exact .inl taken
    | altSecond taken => exact .inr taken
  · rintro (taken | taken)
    · exact .altFirst taken
    · exact .altSecond taken

theorem matches_opt_iff {body : Regex Symbol} : Matches (.opt body) attempt done ↔
    Matches body attempt done ∨ done = attempt := by
  constructor
  · intro matched
    cases matched with
    | present taken => exact .inl taken
    | absent => exact .inr rfl
  · rintro (taken | rfl)
    · exact .present taken
    · exact .absent

/-- A match takes something off the front. -/
theorem Matches.front {regex : Regex Symbol} (matched : Matches regex attempt done) :
    ∃ front, attempt.rest = front ++ done.rest := by
  induction matched with
  | one _ => exact ⟨[_], rfl⟩
  | many _ => exact ⟨_, rfl⟩
  | finish _ | absent => exact ⟨[], rfl⟩
  | seq _ _ frontIh backIh =>
    obtain ⟨front, same⟩ := frontIh
    obtain ⟨back, rest⟩ := backIh
    exact ⟨front ++ back, by rw [same, rest, List.append_assoc]⟩
  | altFirst _ ih | altSecond _ ih | present _ ih | group _ ih => exact ih

/-- A group keeps what its inside has taken. -/
theorem matches_group_iff {body : Regex Symbol} : Matches (.group index body) attempt done ↔
    ∃ front rest groups, attempt.rest = front ++ rest ∧ Matches body attempt ⟨rest, groups⟩ ∧
      done = ⟨rest, (index, front) :: groups⟩ := by
  have kept (front rest : List Symbol) :
      (front ++ rest).take ((front ++ rest).length - rest.length) = front := by simp
  constructor
  · intro matched
    cases matched with
    | @group _ _ rest groups _ taken =>
      obtain ⟨front, same⟩ := taken.front
      exact ⟨front, rest, groups, same, taken, by rw [same, kept]⟩
  · rintro ⟨front, rest, groups, same, taken, rfl⟩
    have matched : Matches (.group index body) attempt _ := .group taken
    rwa [same, kept] at matched

/-- An expression that always takes something. -/
def Takes (regex : Regex Symbol) : Prop :=
  ∀ attempt done, Matches regex attempt done → done.rest.length < attempt.rest.length

theorem takes_seq_one (accepts : Symbol → Bool) (after : Regex Symbol) : Takes (.seq (.one accepts) after) := by
  rintro ⟨text, groups⟩ done matched
  obtain ⟨middle, front, back⟩ := matches_seq_iff.mp matched
  obtain ⟨symbol, rest, rfl, _, rfl⟩ := matches_one_iff.mp front
  obtain ⟨taken, same⟩ := back.front
  change rest = taken ++ done.rest at same
  rw [same, List.length_cons, List.length_append]
  omega

def searchUpTo (regex : Regex Symbol) : Nat → List Symbol → List (Attempt Symbol)
  | 0, _ | _ + 1, [] => []
  | fuel + 1, symbol :: rest =>
    match regex.match? (symbol :: rest) with
    | some done => done :: searchUpTo regex fuel done.rest
    | none => searchUpTo regex fuel rest

/-- The matches in a text from left to right, each sought where the last one ended. The
expression has to take something. -/
def findAll (regex : Regex Symbol) (text : List Symbol) : List (Attempt Symbol) :=
  regex.searchUpTo text.length text

theorem searchUpTo_enough {regex : Regex Symbol} (takes : Takes regex) (enough : text.length ≤ fuel)
    (plenty : text.length ≤ other) : regex.searchUpTo fuel text = regex.searchUpTo other text := by
  induction fuel generalizing text other with
  | zero =>
    cases List.length_eq_zero_iff.mp (Nat.le_zero.mp enough)
    cases other <;> rfl
  | succ fuel ih =>
    cases text with
    | nil => cases other <;> rfl
    | cons symbol rest =>
      cases other with
      | zero => cases plenty
      | succ other =>
        have shorter : rest.length ≤ fuel := Nat.le_of_succ_le_succ enough
        have others : rest.length ≤ other := Nat.le_of_succ_le_succ plenty
        rw [searchUpTo, searchUpTo]
        cases found : regex.match? (symbol :: rest) with
        | none => exact ih shorter others
        | some done =>
          obtain ⟨_, matched, same⟩ := of_run found
          cases same
          have less : done.rest.length ≤ rest.length := Nat.le_of_lt_succ (takes _ _ matched)
          exact congrArg (done :: ·) (ih (Nat.le_trans less shorter) (Nat.le_trans less others))

theorem findAll_match {regex : Regex Symbol} (takes : Takes regex) (found : regex.match? text = some done) :
    regex.findAll text = done :: regex.findAll done.rest := by
  obtain ⟨_, matched, same⟩ := of_run found
  cases same
  have less := takes _ _ matched
  cases text with
  | nil => cases less
  | cons symbol rest =>
    rw [findAll, List.length_cons, searchUpTo, found]
    exact congrArg (done :: ·) (searchUpTo_enough takes (Nat.le_of_lt_succ less) (Nat.le_refl _))

theorem findAll_skip {regex : Regex Symbol} (failed : regex.match? (symbol :: rest) = none) :
    regex.findAll (symbol :: rest) = regex.findAll rest := by
  rw [findAll, List.length_cons, searchUpTo, failed]
  rfl

/-- The longest run is tried first. -/
theorem runMany_greedy {next : Attempt Symbol → Option Result} {front rest : List Symbol}
    (accepted : ∀ symbol ∈ front, accepts symbol = true) (halts : ∀ symbol ∈ rest.head?, accepts symbol = false)
    (found : next ⟨rest, groups⟩ = some result) : runMany accepts groups next (front ++ rest) = some result := by
  induction front with
  | nil =>
    cases rest with
    | nil => exact found
    | cons symbol rest =>
      rw [List.nil_append, runMany, if_neg (by simp [halts symbol rfl])]
      exact found
  | cons symbol front ih =>
    obtain ⟨here, others⟩ := List.forall_mem_cons.mp accepted
    rw [List.cons_append, runMany, if_pos here, ih others]
    rfl

/-- `+` on a class. -/
def plus (accepts : Symbol → Bool) : Regex Symbol := .seq (.one accepts) (.many accepts)

theorem run_seq_one {accepts : Symbol → Bool} {after : Regex Symbol} {next : Attempt Symbol → Option Result}
    (here : accepts symbol = true) (rest : List Symbol) (groups : List (Nat × List Symbol)) :
    (seq (one accepts) after).run ⟨symbol :: rest, groups⟩ next = after.run ⟨rest, groups⟩ next := by
  change (if accepts symbol then _ else none) = _
  rw [if_pos here]

/-- A group takes all the symbols of its class that are there. -/
theorem run_group_plus {next : Attempt Symbol → Option Result} {text rest : List Symbol}
    (present : text ≠ []) (accepted : ∀ symbol ∈ text, accepts symbol = true)
    (halts : ∀ symbol ∈ rest.head?, accepts symbol = false)
    (found : next ⟨rest, (index, text) :: groups⟩ = some result) :
    (group index (plus accepts)).run ⟨text ++ rest, groups⟩ next = some result := by
  obtain ⟨first, others, rfl⟩ := List.exists_cons_of_ne_nil present
  obtain ⟨here, later⟩ := List.forall_mem_cons.mp accepted
  rw [run, List.cons_append, plus, run_seq_one here]
  refine runMany_greedy later halts ?_
  have whole : (first :: (others ++ rest)).take ((first :: (others ++ rest)).length - rest.length) =
      first :: others := by
    rw [← List.cons_append, List.length_append, Nat.add_sub_cancel, List.take_left]
  rw [whole]
  exact found

/-- What a group has matched, in each match. -/
def findGroup (index : Nat) (regex : Regex Symbol) (text : List Symbol) : List (List Symbol) :=
  (regex.findAll text).map fun done => (done.group? index).getD []

theorem findGroup_match {regex : Regex Symbol} (takes : Takes regex)
    (found : regex.match? text = some ⟨rest, [(index, part)]⟩) :
    regex.findGroup index text = part :: regex.findGroup index rest := by
  rw [findGroup, findAll_match takes found]
  simp [findGroup, Attempt.group?]

theorem findGroup_skip {regex : Regex Symbol} (failed : regex.match? (symbol :: rest) = none) :
    regex.findGroup index (symbol :: rest) = regex.findGroup index rest := by
  rw [findGroup, findAll_skip failed, findGroup]

/-- Where no match can begin none is found. -/
theorem findGroup_append {accepts : Symbol → Bool} {after : Regex Symbol} {front : List Symbol}
    (other : ∀ symbol ∈ front, accepts symbol = false) (rest : List Symbol) :
    (seq (one accepts) after).findGroup index (front ++ rest) = (seq (one accepts) after).findGroup index rest := by
  induction front with
  | nil => rfl
  | cons symbol front ih =>
    obtain ⟨here, others⟩ := List.forall_mem_cons.mp other
    rw [List.cons_append, findGroup_skip, ih others]
    simp [match?, run, here]

end Regex

end Lib
