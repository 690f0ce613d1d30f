import Mathlib.Data.List.Basic

/-! A terminal as far as its text attributes go. A control sequence that ends in `m`
selects attributes, with the parameter 0 or none takes them all back, and everything
else leaves them alone. -/

namespace Lib

/-- Where in a control sequence the terminal is. -/
inductive Scan where
  | text
  | escape
  /-- The parameters read in full, and the one being read. -/
  | sequence (parameters : List Nat) (parameter : Nat)
  deriving DecidableEq, Repr

structure Terminal where
  scan : Scan
  /-- The attributes selected since they were last taken back, the latest first. -/
  selected : List Nat
  deriving DecidableEq, Repr

namespace Terminal

/-- In the text, with no attribute selected. -/
def fresh : Terminal := ⟨.text, []⟩

def select (selected : List Nat) (parameter : Nat) : List Nat :=
  if parameter = 0 then [] else parameter :: selected

def feed (terminal : Terminal) (symbol : Char) : Terminal :=
  match terminal.scan with
  | .text => if symbol = '\x1b' then { terminal with scan := .escape } else terminal
  | .escape => { terminal with scan := if symbol = '[' then .sequence [] 0 else .text }
  | .sequence parameters parameter =>
    if symbol.isDigit then
      { terminal with scan := .sequence parameters (10 * parameter + (symbol.toNat - '0'.toNat)) }
    else if symbol = ';' then { terminal with scan := .sequence (parameters ++ [parameter]) 0 }
    else if symbol = 'm' then ⟨.text, (parameters ++ [parameter]).foldl select terminal.selected⟩
    else { terminal with scan := .text }

def write (terminal : Terminal) (text : List Char) : Terminal := text.foldl feed terminal

theorem write_append (terminal : Terminal) (first second : List Char) :
    terminal.write (first ++ second) = (terminal.write first).write second :=
  List.foldl_append

/-- Text without control sequences changes nothing. -/
theorem write_plain (plain : '\x1b' ∉ text) (selected : List Nat) :
    (Terminal.mk .text selected).write text = ⟨.text, selected⟩ := by
  induction text with
  | nil => rfl
  | cons symbol rest ih =>
    obtain ⟨different, later⟩ := not_or.mp (List.mem_cons.not.mp plain)
    have here : (Terminal.mk .text selected).feed symbol = ⟨.text, selected⟩ := by
      simp [feed, Ne.symm different]
    rw [write, List.foldl_cons, here]
    exact ih later

/-- Attributes off, then on: the order of the parameters counts. -/
example : fresh.write "\x1b[31;0;1m".toList = ⟨.text, [1]⟩ := by decide

end Terminal

end Lib
