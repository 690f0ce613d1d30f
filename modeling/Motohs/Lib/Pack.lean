import Mathlib.Data.Nat.Digits.Defs
import Mathlib.Algebra.BigOperators.Group.List.Basic
import Mathlib.Tactic.Ring

/-! Packed records: unsigned numbers of fixed size, in either byte order, written one
after the other by a format and read back by it. -/

namespace Lib

abbrev Bytes := List UInt8

inductive ByteOrder where
  | little
  | big
  deriving DecidableEq, Repr

/-- A number in so many bytes, the least significant first. -/
def lowFirst : Nat → Nat → Bytes
  | 0, _ => []
  | size + 1, number => UInt8.ofNat number :: lowFirst size (number / 256)

def ofLowFirst (bytes : Bytes) : Nat := Nat.ofDigits 256 (bytes.map UInt8.toNat)

theorem length_lowFirst (size number : Nat) : (lowFirst size number).length = size := by
  induction size generalizing number with
  | zero => rfl
  | succ size ih => rw [lowFirst, List.length_cons, ih]

theorem ofLowFirst_lowFirst (fits : number < 256 ^ size) : ofLowFirst (lowFirst size number) = number := by
  induction size generalizing number with
  | zero =>
    rw [pow_zero, Nat.lt_one_iff] at fits
    rw [fits]
    rfl
  | succ size ih =>
    have quotient : number / 256 < 256 ^ size := by
      rw [pow_succ] at fits
      exact Nat.div_lt_of_lt_mul (by rwa [Nat.mul_comm])
    have rest := ih quotient
    simp only [ofLowFirst] at rest
    simp only [lowFirst, ofLowFirst, List.map_cons, Nat.ofDigits_cons, rest, UInt8.toNat_ofNat']
    omega

theorem ofLowFirst_lt (bytes : Bytes) : ofLowFirst bytes < 256 ^ bytes.length := by
  induction bytes with
  | nil => decide
  | cons first rest ih =>
    have small := first.toNat_lt
    simp only [ofLowFirst] at ih
    simp only [ofLowFirst, List.map_cons, Nat.ofDigits_cons, List.length_cons, pow_succ]
    omega

theorem lowFirst_ofLowFirst (bytes : Bytes) : lowFirst bytes.length (ofLowFirst bytes) = bytes := by
  induction bytes with
  | nil => rfl
  | cons first rest ih =>
    have small := first.toNat_lt
    simp only [ofLowFirst] at ih
    simp only [ofLowFirst, List.map_cons, Nat.ofDigits_cons, List.length_cons, lowFirst]
    have quotient : (first.toNat + 256 * Nat.ofDigits 256 (rest.map UInt8.toNat)) / 256 =
        Nat.ofDigits 256 (rest.map UInt8.toNat) := by omega
    rw [quotient, ih]
    congr 1
    apply UInt8.toNat_inj.mp
    rw [UInt8.toNat_ofNat']
    omega

namespace ByteOrder

def write (order : ByteOrder) (size number : Nat) : Bytes :=
  match order with
  | .little => lowFirst size number
  | .big => (lowFirst size number).reverse

def read (order : ByteOrder) (bytes : Bytes) : Nat :=
  match order with
  | .little => ofLowFirst bytes
  | .big => ofLowFirst bytes.reverse

theorem length_write (order : ByteOrder) (size number : Nat) :
    (order.write size number).length = size := by
  cases order <;> simp [write, length_lowFirst]

theorem read_write (order : ByteOrder) (fits : number < 256 ^ size) :
    order.read (order.write size number) = number := by
  cases order <;> simp [read, write, ofLowFirst_lowFirst fits]

theorem write_read (order : ByteOrder) (bytes : Bytes) :
    order.write bytes.length (order.read bytes) = bytes := by
  cases order with
  | little => exact lowFirst_ofLowFirst bytes
  | big =>
    have same := lowFirst_ofLowFirst bytes.reverse
    rw [List.length_reverse] at same
    rw [write, read, same, List.reverse_reverse]

theorem read_lt (order : ByteOrder) (bytes : Bytes) : order.read bytes < 256 ^ bytes.length := by
  cases order with
  | little => exact ofLowFirst_lt bytes
  | big => simpa [read] using ofLowFirst_lt bytes.reverse

end ByteOrder

/-- One item of a format: a byte to skip, or an unsigned number of so many bytes. -/
inductive Code where
  | pad
  | unsigned (size : Nat)
  deriving DecidableEq, Repr

abbrev Code.B : Code := .unsigned 1

abbrev Code.H : Code := .unsigned 2

abbrev Code.I : Code := .unsigned 4

def Code.size : Code → Nat
  | .pad => 1
  | .unsigned size => size

/-- How many bytes a format describes. -/
def calcsize (format : List Code) : Nat := (format.map Code.size).sum

/-- The values are as many as the format has numbers, and each has the size it needs. -/
def Fits : List Code → List Int → Prop
  | [], values => values = []
  | .pad :: format, values => Fits format values
  | .unsigned _ :: _, [] => False
  | .unsigned size :: format, value :: values => (0 ≤ value ∧ value < 256 ^ size) ∧ Fits format values

instance decidableFits : (format : List Code) → (values : List Int) → Decidable (Fits format values)
  | [], values => inferInstanceAs (Decidable (values = []))
  | .pad :: format, values => decidableFits format values
  | .unsigned _ :: _, [] => inferInstanceAs (Decidable False)
  | .unsigned _ :: format, _ :: values => @instDecidableAnd _ _ _ (decidableFits format values)

def encode (order : ByteOrder) : List Code → List Int → Bytes
  | [], _ => []
  | .pad :: format, values => 0 :: encode order format values
  | .unsigned _ :: _, [] => []
  | .unsigned size :: format, value :: values =>
    order.write size value.toNat ++ encode order format values

def decode (order : ByteOrder) : List Code → Bytes → List Nat
  | [], _ => []
  | .pad :: format, bytes => decode order format (bytes.drop 1)
  | .unsigned size :: format, bytes =>
    order.read (bytes.take size) :: decode order format (bytes.drop size)

/-- The values packed, `none` when one of them is out of range. -/
def pack (order : ByteOrder) (format : List Code) (values : List Int) : Option Bytes :=
  if Fits format values then some (encode order format values) else none

/-- The numbers in the bytes, `none` unless they are as many as the format takes. -/
def unpack (order : ByteOrder) (format : List Code) (bytes : Bytes) : Option (List Nat) :=
  if bytes.length = calcsize format then some (decode order format bytes) else none

theorem pack_eq_some_iff : pack order format values = some bytes ↔
    Fits format values ∧ encode order format values = bytes := by
  simp [pack]

theorem length_encode (fits : Fits format values) :
    (encode order format values).length = calcsize format := by
  induction format generalizing values with
  | nil => rfl
  | cons code format ih =>
    cases code with
    | pad =>
      rw [encode, List.length_cons, ih fits, calcsize, calcsize, List.map_cons, List.sum_cons,
        Nat.add_comm]
      rfl
    | unsigned size =>
      cases values with
      | nil => cases fits
      | cons value values =>
        rw [encode, List.length_append, ByteOrder.length_write, ih fits.2]
        rfl

theorem length_pack (packed : pack order format values = some bytes) : bytes.length = calcsize format := by
  obtain ⟨fits, rfl⟩ := pack_eq_some_iff.mp packed
  exact length_encode fits

theorem decode_encode (fits : Fits format values) :
    decode order format (encode order format values) = values.map Int.toNat := by
  induction format generalizing values with
  | nil =>
    rw [Fits] at fits
    rw [fits]
    rfl
  | cons code format ih =>
    cases code with
    | pad => exact ih fits
    | unsigned size =>
      cases values with
      | nil => cases fits
      | cons value values =>
        obtain ⟨⟨positive, small⟩, rest⟩ := fits
        have below : value.toNat < 256 ^ size := by
          zify
          rwa [Int.toNat_of_nonneg positive]
        rw [encode, decode, List.take_left' (order.length_write _ _),
          List.drop_left' (order.length_write _ _), order.read_write below, ih rest, List.map_cons]

theorem calcsize_cons (code : Code) (format : List Code) :
    calcsize (code :: format) = code.size + calcsize format := by
  simp [calcsize]

/-- A format in two parts is read part by part. -/
theorem decode_append (order : ByteOrder) (front back : List Code) (bytes : Bytes) :
    decode order (front ++ back) bytes =
      decode order front (bytes.take (calcsize front)) ++ decode order back (bytes.drop (calcsize front)) := by
  induction front generalizing bytes with
  | nil => rfl
  | cons code front ih =>
    cases code with
    | pad =>
      rw [List.cons_append, decode, decode, ih, calcsize_cons, Code.size, List.drop_take, List.drop_drop,
        Nat.add_sub_cancel_left]
    | unsigned size =>
      rw [List.cons_append, decode, decode, ih, calcsize_cons, Code.size, List.drop_take, List.drop_drop,
        Nat.add_sub_cancel_left, List.take_take, Nat.min_eq_left (Nat.le_add_right _ _), List.cons_append]

/-- What is packed is unpacked again. -/
theorem unpack_pack (packed : pack order format values = some bytes) :
    unpack order format bytes = some (values.map Int.toNat) := by
  have length := length_pack packed
  obtain ⟨fits, rfl⟩ := pack_eq_some_iff.mp packed
  rw [unpack, if_pos length, decode_encode fits]

/-- Without skipped bytes everything in the bytes is in the values. -/
theorem encode_decode {format : List Code} (solid : .pad ∉ format) (length : bytes.length = calcsize format) :
    Fits format ((decode order format bytes).map Int.ofNat) ∧
      encode order format ((decode order format bytes).map Int.ofNat) = bytes := by
  induction format generalizing bytes with
  | nil =>
    have empty : bytes = [] := List.length_eq_zero_iff.mp length
    subst empty
    exact ⟨rfl, rfl⟩
  | cons code format ih =>
    simp only [List.mem_cons, not_or] at solid
    cases code with
    | pad => exact absurd rfl solid.1
    | unsigned size =>
      have total : bytes.length = size + calcsize format := length
      have front : (bytes.take size).length = size := by
        rw [List.length_take]
        omega
      have remaining : (bytes.drop size).length = calcsize format := by simp [total]
      obtain ⟨fits, same⟩ := ih solid.2 remaining
      have small := order.read_lt (bytes.take size)
      have written := order.write_read (bytes.take size)
      rw [front] at small written
      refine ⟨⟨⟨Int.natCast_nonneg _, ?_⟩, fits⟩, ?_⟩
      · zify at small
        exact small
      · rw [decode, List.map_cons, encode, same]
        change order.write size (order.read (bytes.take size)) ++ _ = _
        rw [written, List.take_append_drop]

theorem unpack_eq_some_iff : unpack order format bytes = some values ↔
    bytes.length = calcsize format ∧ decode order format bytes = values := by
  simp [unpack]

end Lib
