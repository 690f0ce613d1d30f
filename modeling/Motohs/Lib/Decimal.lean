import Mathlib.Data.Nat.Digits.Defs
import Mathlib.Data.Nat.Log
import Mathlib.Data.List.TakeWhile

/-! Decimal numerals: how a number is printed, and the number that `strtol` reads. -/

namespace Lib

def decimal (number : Nat) : List Char := Nat.toDigits 10 number

def decimalInt : Int → List Char
  | .ofNat number => decimal number
  | .negSucc number => '-' :: decimal (number + 1)

/-- `isspace` in the C locale. -/
def isSpace (symbol : Char) : Bool := symbol ∈ [' ', '\t', '\n', '\x0b', '\x0c', '\r']

/-- The number at the start of a text: blanks, a sign, digits; what follows is left. -/
def strtol (text : List Char) : Option Int :=
  let (negative, text) :=
    match text.dropWhile isSpace with
    | '-' :: rest => (true, rest)
    | '+' :: rest => (false, rest)
    | rest => (false, rest)
  match text.takeWhile Char.isDigit with
  | [] => none
  | digits =>
    let value := Int.ofNat (Nat.ofDigitChars 10 digits 0)
    some (if negative then -value else value)

theorem isDigit_of_mem_decimal (member : symbol ∈ decimal number) : symbol.isDigit = true :=
  Nat.isDigit_of_mem_toDigits (by decide) (by decide) member

theorem not_mem_decimal (symbol : Char) (other : symbol.isDigit = false) (number : Nat) :
    symbol ∉ decimal number := by
  intro member
  rw [isDigit_of_mem_decimal member] at other
  cases other

theorem not_mem_decimalInt (symbol : Char) (other : symbol.isDigit = false) (sign : symbol ≠ '-')
    (number : Int) : symbol ∉ decimalInt number := by
  cases number with
  | ofNat number => exact not_mem_decimal symbol other number
  | negSucc number =>
    rw [decimalInt, List.mem_cons, not_or]
    exact ⟨sign, not_mem_decimal symbol other _⟩

theorem decimal_ne_nil (number : Nat) : decimal number ≠ [] := Nat.toDigits_ne_nil

theorem decimalInt_ne_nil (number : Int) : decimalInt number ≠ [] := by
  cases number with
  | ofNat number => exact decimal_ne_nil number
  | negSucc number => exact List.cons_ne_nil _ _

/-- How wide a number is printed. -/
theorem length_decimal (number : Nat) : (decimal number).length = Nat.log 10 number + 1 := by
  induction number using Nat.strong_induction_on with
  | _ number ih =>
    by_cases single : number < 10
    · rw [decimal, Nat.toDigits_of_lt_base single, Nat.log_of_lt single]
      rfl
    · have many : 10 ≤ number := Nat.le_of_not_lt single
      have shorter := ih (number / 10) (Nat.div_lt_self (by omega) (by decide))
      rw [decimal, Nat.toDigits_of_base_le (by decide) many, List.length_append, List.length_singleton,
        Nat.log_of_one_lt_of_le (by decide) many]
      exact congrArg (· + 1) shorter

theorem length_decimalInt (number : Int) : (decimalInt number).length =
    Nat.log 10 number.natAbs + 1 + if number < 0 then 1 else 0 := by
  cases number with
  | ofNat number => simp [decimalInt, length_decimal]
  | negSucc number => simp [decimalInt, length_decimal]

theorem ofDigitChars_decimal (number : Nat) : Nat.ofDigitChars 10 (decimal number) 0 = number :=
  Nat.ofDigitChars_ten_toDigits

theorem decimal_injective (same : decimal one = decimal other) : one = other := by
  rw [← ofDigitChars_decimal one, same, ofDigitChars_decimal]

theorem isSpace_of_isDigit (digit : symbol.isDigit = true) : isSpace symbol = false := by
  rw [isSpace, decide_eq_false_iff_not]
  intro blank
  simp only [List.mem_cons, List.not_mem_nil, or_false] at blank
  rcases blank with rfl | rfl | rfl | rfl | rfl | rfl <;> cases digit

theorem strtol_decimal (number : Nat) : strtol (decimal number) = some (Int.ofNat number) := by
  have digits : (decimal number).takeWhile Char.isDigit = decimal number :=
    List.takeWhile_eq_self_iff.mpr fun _ member => isDigit_of_mem_decimal member
  have value := ofDigitChars_decimal number
  obtain ⟨first, rest, same⟩ := List.exists_cons_of_ne_nil (decimal_ne_nil number)
  have digit : first.isDigit = true :=
    isDigit_of_mem_decimal (same ▸ List.mem_cons_self : first ∈ decimal number)
  rw [same] at digits value ⊢
  have unsigned : first ≠ '-' ∧ first ≠ '+' := by
    constructor <;> rintro rfl <;> cases digit
  simp [strtol, isSpace_of_isDigit digit, unsigned, digits, value]

end Lib
