import Motohs.Lib.Decimal
import Motohs.Lib.Pack

/-! Bytes as pairs of hexadecimal digits: how they are printed, and how they are read. -/

namespace Lib

def hexDigit (char : Char) : Option Nat :=
  if '0' ≤ char ∧ char ≤ '9' then some (char.toNat - '0'.toNat)
  else if 'a' ≤ char ∧ char ≤ 'f' then some (char.toNat - 'a'.toNat + 10)
  else if 'A' ≤ char ∧ char ≤ 'F' then some (char.toNat - 'A'.toNat + 10)
  else none

/-- `'{:02x}'.format(byte)` -/
def hexPair (byte : UInt8) : List Char := [(byte.toNat / 16).digitChar, (byte.toNat % 16).digitChar]

def ofHexPair (high low : Char) : Option UInt8 := do
  let high ← hexDigit high
  let low ← hexDigit low
  pure (UInt8.ofNat (16 * high + low))

/-- `bytes.fromhex`: pairs of digits, with blanks between them or not. -/
def fromHex : List Char → Option Bytes
  | [] => some []
  | [last] => if isSpace last then some [] else none
  | high :: low :: rest =>
    if isSpace high then fromHex (low :: rest)
    else do
      let byte ← ofHexPair high low
      let bytes ← fromHex rest
      pure (byte :: bytes)

theorem hexDigit_digitChar (small : number < 16) : hexDigit number.digitChar = some number := by
  have each : ∀ number < 16, hexDigit number.digitChar = some number := by decide
  exact each number small

theorem halves (byte : UInt8) : byte.toNat / 16 < 16 ∧ byte.toNat % 16 < 16 := by
  have small := byte.toNat_lt
  omega

theorem ofHexPair_hexPair (byte : UInt8) :
    ofHexPair (byte.toNat / 16).digitChar (byte.toNat % 16).digitChar = some byte := by
  obtain ⟨high, low⟩ := halves byte
  rw [ofHexPair, hexDigit_digitChar high, hexDigit_digitChar low]
  change some (UInt8.ofNat (16 * (byte.toNat / 16) + byte.toNat % 16)) = some byte
  rw [Nat.div_add_mod, UInt8.ofNat_toNat]

/-- A list of literals of bytes, each with a comma behind it, blanks between them or not: the
bytes, and what follows. -/
def readLiterals : List Char → Option (Bytes × List Char)
  | '0' :: 'x' :: high :: low :: ',' :: rest => do
    let byte ← ofHexPair high low
    let (bytes, rest) ← readLiterals rest
    pure (byte :: bytes, rest)
  | char :: rest => if isSpace char then readLiterals rest else some ([], char :: rest)
  | [] => some ([], [])

/-- A literal of a byte, with a comma behind it. -/
def byteLiteral (byte : UInt8) : List Char := '0' :: 'x' :: (hexPair byte ++ [','])

theorem readLiterals_byteLiteral (byte : UInt8) (rest : List Char) : readLiterals (byteLiteral byte ++ rest) =
    (readLiterals rest).map fun (bytes, rest) => (byte :: bytes, rest) := by
  change readLiterals ('0' :: 'x' :: _ :: _ :: ',' :: rest) = _
  rw [readLiterals, ofHexPair_hexPair]
  cases readLiterals rest <;> rfl

theorem readLiterals_blank (blank : ∀ char ∈ front, isSpace char = true) (rest : List Char) :
    readLiterals (front ++ rest) = readLiterals rest := by
  induction front with
  | nil => rfl
  | cons char front ih =>
    obtain ⟨here, later⟩ := List.forall_mem_cons.mp blank
    have other : char ≠ '0' := by
      rintro rfl
      cases here
    rw [List.cons_append, readLiterals, if_pos here, ih later]
    intro _ _ _ same
    exact (other same).elim

theorem readLiterals_end (other : isSpace char = false) (digit : char ≠ '0') (rest : List Char) :
    readLiterals (char :: rest) = some ([], char :: rest) := by
  rw [readLiterals, if_neg (by simp [other])]
  intro _ _ _ same
  exact (digit same).elim

end Lib
