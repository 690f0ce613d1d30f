import Motohs.Imgtool.Keys
import Motohs.Lib.Der

/-! Private keys as `getpriv` dumps them: in full, or minimized to what decryption needs. -/

namespace Motohs.Imgtool

open Lib

/-- `b[index]` -/
def byteAt (b : Bytes) (index : Nat) : Except Raised UInt8 :=
  match b[index]? with
  | some byte => .ok byte
  | none => .error .indexError

/-- `b[index] = value` of a `bytearray`. -/
def setByte (b : Bytes) (index : Nat) (value : Int) : Except Raised Bytes :=
  if ¬ (0 ≤ value ∧ value < 256) then .error .valueError
  else if index < b.length then .ok (b.set index (UInt8.ofNat value.toNat))
  else .error .indexError

def minimizingError (field : Char) : Raised :=
  .keyUsageError ("Error parsing ".toList ++ field :: " while minimizing".toList)

/-- Where a field ends whose length is in the two bytes behind a `0x82`. -/
def longFieldEnd (b : Bytes) (field : Char) (off : Nat) : Except Raised Nat := do
  if (← byteAt b (off + 1)) ≠ 0x82 then .error (minimizingError field)
  else do
    let high ← byteAt b (off + 2)
    let low ← byteAt b (off + 3)
    pure (off + ((high.toNat <<< 8) + low.toNat + 4))

/-- Where a field ends by the byte behind that form, with so much around it. -/
def fieldEnd (b : Bytes) (field : Char) (form : UInt8) (around off : Nat) : Except Raised Nat := do
  if (← byteAt b (off + 1)) ≠ form then .error (minimizingError field)
  else do
    let size ← byteAt b (off + 2)
    pure (off + (size.toNat + around))

/-- The sequence is made to end there, with its length behind a `0x82`. -/
def endSequence (b : Bytes) (off : Nat) : Except Raised Bytes := do
  let b ← setByte b 2 (((off - 4) >>> 8 : Nat) : Int)
  let b ← setByte b 3 (((off - 4) &&& 0xff : Nat) : Int)
  pure (b.take off)

/-- `_build_minimal_rsa_privkey`. What E has for a length is its first byte. -/
def buildMinimalRsaPrivkey (der : Bytes) : Except Raised Bytes := do
  let off ← longFieldEnd der 'N' 7
  let off ← fieldEnd der 'E' 0x03 4 off
  let off ← longFieldEnd der 'D' off
  let off ← fieldEnd der 'P' 0x81 3 off
  let off ← fieldEnd der 'Q' 0x81 3 off
  endSequence der off

section Rsa

open Der Element

theorem byteAt_append (front rest : Bytes) (index : Nat) :
    byteAt (front ++ rest) (front.length + index) = byteAt rest index := by
  rw [byteAt, byteAt, List.getElem?_append_right (Nat.le_add_right _ _), Nat.add_sub_cancel_left]

/-- The end of an element is found if its length takes two bytes. -/
theorem longFieldEnd_write (front rest : Bytes) (element : Element) (field : Char) :
    longFieldEnd (front ++ (element.write ++ rest)) field front.length =
      if 256 ≤ element.content.length then .ok (front ++ element.write).length
      else .error (minimizingError field) := by
  have short := element.short
  simp only [longFieldEnd, byteAt_append, write, List.cons_append, List.length_append, List.length_cons]
  by_cases one : element.content.length < 128
  · have form : UInt8.ofNat element.content.length ≠ 0x82 := ofNat_ne_form (by decide) one
    rw [if_neg (by omega : ¬ 256 ≤ element.content.length), lengthBytes, if_pos one]
    simp [byteAt, form, bind, Except.bind]
  · by_cases two : element.content.length < 256
    · rw [if_neg (by omega : ¬ 256 ≤ element.content.length), lengthBytes, if_neg one, if_pos two]
      simp [byteAt, bind, Except.bind]
    · have high : (UInt8.ofNat (element.content.length / 256)).toNat = element.content.length / 256 := by
        rw [UInt8.toNat_ofNat']
        omega
      have low : (UInt8.ofNat element.content.length).toNat = element.content.length % 256 := UInt8.toNat_ofNat'
      rw [if_pos (by omega : 256 ≤ element.content.length), lengthBytes, if_neg one, if_neg two]
      simp [byteAt, bind, Except.bind, pure, Except.pure, high, low, Nat.shiftLeft_eq]
      omega

/-- The end of an element is found if its length takes one byte behind its form. -/
theorem fieldEnd_write (front rest : Bytes) (element : Element) (field : Char) :
    fieldEnd (front ++ (element.write ++ rest)) field 0x81 3 front.length =
      if 128 ≤ element.content.length ∧ element.content.length < 256 then .ok (front ++ element.write).length
      else .error (minimizingError field) := by
  simp only [fieldEnd, byteAt_append, write, List.cons_append, List.length_append, List.length_cons]
  by_cases one : element.content.length < 128
  · have form : UInt8.ofNat element.content.length ≠ 0x81 := ofNat_ne_form (by decide) one
    rw [if_neg (by omega), lengthBytes, if_pos one]
    simp [byteAt, form, bind, Except.bind]
  · by_cases two : element.content.length < 256
    · have size : (UInt8.ofNat element.content.length).toNat = element.content.length := by
        rw [UInt8.toNat_ofNat']
        omega
      rw [if_pos ⟨Nat.le_of_not_lt one, two⟩, lengthBytes, if_neg one, if_pos two]
      simp [byteAt, bind, Except.bind, pure, Except.pure, size]
      omega
    · rw [if_neg (by omega), lengthBytes, if_neg one, if_neg two]
      simp [byteAt, bind, Except.bind]

/-- The end of E is found if its first byte is a one. -/
theorem exponentEnd_write (front rest : Bytes) (element : Element) (first : element.content = [1, high, low]) :
    fieldEnd (front ++ (element.write ++ rest)) 'E' 0x03 4 front.length = .ok (front ++ element.write).length := by
  simp only [fieldEnd, byteAt_append, write, List.cons_append, List.length_append, List.length_cons, first]
  rfl

theorem setByte_of_lt {value : Nat} (b : Bytes) (small : value < 256) (inside : index < b.length) :
    setByte b index (value : Int) = .ok (b.set index (UInt8.ofNat value)) := by
  rw [setByte, if_neg (by omega), if_pos inside, Int.toNat_natCast]

theorem endSequence_eq (tag form high low : UInt8) (rest : Bytes) (short : size < 65536) :
    endSequence (tag :: form :: high :: low :: rest) (size + 4) =
      .ok (tag :: form :: UInt8.ofNat (size / 256) :: UInt8.ofNat size :: rest.take size) := by
  have quotient : size >>> 8 = size / 256 := Nat.shiftRight_eq_div_pow _ _
  have remainder : size &&& 0xff = size % 256 := Nat.and_two_pow_sub_one_eq_mod size 8
  have back : UInt8.ofNat (size % 256) = UInt8.ofNat size := by
    apply UInt8.toNat_inj.mp
    rw [UInt8.toNat_ofNat', UInt8.toNat_ofNat', Nat.mod_mod]
  have one : setByte (tag :: form :: high :: low :: rest) 2 ((size / 256 : Nat) : Int) =
      .ok (tag :: form :: UInt8.ofNat (size / 256) :: low :: rest) := setByte_of_lt _ (by omega) (by simp)
  have two : setByte (tag :: form :: UInt8.ofNat (size / 256) :: low :: rest) 3 ((size % 256 : Nat) : Int) =
      .ok (tag :: form :: UInt8.ofNat (size / 256) :: UInt8.ofNat (size % 256) :: rest) :=
    setByte_of_lt _ (by omega) (by simp)
  simp only [endSequence, Nat.add_sub_cancel, quotient, remainder, one, two, back, bind, Except.bind]
  rfl

theorem le_modulus (version : Element) {n : Element} (modulus : 256 ≤ n.content.length) (others : List Element) :
    256 ≤ (codec.writeAll (version :: n :: others)).length := by
  have size : (codec.write n).length = _ := length_write n
  simp only [Codec.writeAll_cons, List.length_append]
  omega

/-- A sequence ends behind its first elements when it is cut there. -/
theorem endSequence_writeSequence {kept more : List Element} (long : 256 ≤ (codec.writeAll kept).length)
    (short : (codec.writeAll (kept ++ more)).length < 65536) :
    endSequence (writeSequence (kept ++ more)) ((codec.writeAll kept).length + 4) = .ok (writeSequence kept) := by
  have parts := codec.writeAll_append kept more
  have lengths := congrArg List.length parts
  rw [List.length_append] at lengths
  have shorter : (codec.writeAll kept).length < 65536 := by omega
  rw [writeSequence_of_le (by omega), parts, endSequence_eq _ _ _ _ _ shorter, List.take_left, writeSequence_of_le long]

/-- Of the elements of a key the first six are left, if their lengths have the forms that
are looked for. -/
theorem buildMinimalRsaPrivkey_eq (short : (codec.writeAll (version :: n :: e :: d :: p :: q :: more)).length < 65536)
    (single : version.content.length = 1) (modulus : 256 ≤ n.content.length) (exponent : e.content = [1, high, low]) :
    buildMinimalRsaPrivkey (writeSequence (version :: n :: e :: d :: p :: q :: more)) =
      if 256 ≤ d.content.length then
        if 128 ≤ p.content.length ∧ p.content.length < 256 then
          if 128 ≤ q.content.length ∧ q.content.length < 256 then .ok (writeSequence [version, n, e, d, p, q])
          else .error (minimizingError 'Q')
        else .error (minimizingError 'P')
      else .error (minimizingError 'D') := by
  have cut := @endSequence_writeSequence [version, n, e, d, p, q] more (le_modulus version modulus _) short
  change endSequence (writeSequence (version :: n :: e :: d :: p :: q :: more)) _ = _ at cut
  -- the offset of N is the length of what is in front of it
  obtain ⟨byte, content⟩ := List.length_eq_one_iff.mp single
  have start : version.write = [version.tag, 1, byte] := by
    rw [write, content]
    rfl
  obtain ⟨front, length, der, last⟩ : ∃ front : Bytes, front.length = 7 ∧
      writeSequence (version :: n :: e :: d :: p :: q :: more) =
        front ++ (n.write ++ (e.write ++ (d.write ++ (p.write ++ (q.write ++ codec.writeAll more))))) ∧
      (codec.writeAll [version, n, e, d, p, q]).length + 4 =
        (front ++ (n.write ++ (e.write ++ (d.write ++ (p.write ++ q.write))))).length := by
    have written := writeSequence_of_le (le_modulus version modulus (e :: d :: p :: q :: more))
    generalize (codec.writeAll (version :: n :: e :: d :: p :: q :: more)).length = size at written
    refine ⟨sequenceTag :: 0x82 :: UInt8.ofNat (size / 256) :: UInt8.ofNat size :: version.write, ?_, ?_, ?_⟩
    · rw [start]
      rfl
    · rw [written]
      simp [Codec.writeAll, codec]
    · simp [Codec.writeAll, codec]
  rw [last] at cut
  have nEnd := longFieldEnd_write front (e.write ++ (d.write ++ (p.write ++ (q.write ++ codec.writeAll more)))) n 'N'
  have eEnd :=
    exponentEnd_write (front ++ n.write) (d.write ++ (p.write ++ (q.write ++ codec.writeAll more))) e exponent
  have dEnd := longFieldEnd_write (front ++ n.write ++ e.write) (p.write ++ (q.write ++ codec.writeAll more)) d 'D'
  have pEnd := fieldEnd_write (front ++ n.write ++ e.write ++ d.write) (q.write ++ codec.writeAll more) p 'P'
  have qEnd := fieldEnd_write (front ++ n.write ++ e.write ++ d.write ++ p.write) (codec.writeAll more) q 'Q'
  rw [length, if_pos modulus] at nEnd
  simp only [List.append_assoc, ← der] at nEnd eEnd dEnd pEnd qEnd
  simp only [buildMinimalRsaPrivkey, nEnd, eEnd, bind, Except.bind, dEnd]
  by_cases dLong : 256 ≤ d.content.length
  · simp only [if_pos dLong, pEnd]
    by_cases pFits : 128 ≤ p.content.length ∧ p.content.length < 256
    · simp only [if_pos pFits, qEnd]
      by_cases qFits : 128 ≤ q.content.length ∧ q.content.length < 256
      · simp only [if_pos qFits, cut]
      · simp only [if_neg qFits]
    · simp only [if_neg pFits]
  · simp only [if_neg dLong]

/-- An RSA private key of one of the sizes in `RSA_KEY_SIZES`, by the numbers that PKCS #1
lists for it. -/
structure RsaKey where
  keySize : Nat
  supported : keySize = 2048 ∨ keySize = 3072
  modulus : Nat
  publicExponent : Nat
  privateExponent : Nat
  prime1 : Nat
  prime2 : Nat
  exponent1 : Nat
  exponent2 : Nat
  coefficient : Nat
  le_modulus : 2 ^ (keySize - 1) ≤ modulus
  modulus_lt : modulus < 2 ^ keySize
  small : ∀ number ∈ [publicExponent, privateExponent, prime1, prime2, exponent1, exponent2, coefficient],
    number < modulus

namespace RsaKey

/-- What is left of a minimized key: the version, N, E, D, P and Q. -/
def minimal (key : RsaKey) : List Nat :=
  [0, key.modulus, key.publicExponent, key.privateExponent, key.prime1, key.prime2]

def numbers (key : RsaKey) : List Nat := key.minimal ++ [key.exponent1, key.exponent2, key.coefficient]

theorem pow_le (key : RsaKey) (bits : Nat) (small : bits ≤ 2047) : 2 ^ bits ≤ key.modulus := by
  refine Nat.le_trans (Nat.pow_le_pow_right Nat.two_pos ?_) key.le_modulus
  rcases key.supported with size | size <;> omega

theorem lt_pow (key : RsaKey) (bits : Nat) (large : 3072 ≤ bits) : key.modulus < 2 ^ bits := by
  refine Nat.lt_of_lt_of_le key.modulus_lt (Nat.pow_le_pow_right Nat.two_pos ?_)
  rcases key.supported with size | size <;> omega

theorem integerSize_le (key : RsaKey) : ∀ number ∈ key.numbers, integerSize number ≤ 385 := by
  intro number member
  have below : number ≤ key.modulus := by
    have others := key.small
    simp only [numbers, minimal, List.cons_append, List.nil_append, List.mem_cons, List.not_mem_nil, or_false] at member
    simp only [List.forall_mem_cons] at others
    rcases member with rfl | rfl | rfl | rfl | rfl | rfl | rfl | rfl | rfl <;> omega
  apply Nat.le_of_not_lt
  rw [lt_integerSize_iff (show 3079 + 1 = 8 * 385 from rfl), Nat.not_le]
  exact Nat.lt_of_le_of_lt below (key.lt_pow 3079 (by decide))

theorem short (key : RsaKey) (number : Nat) (member : number ∈ key.numbers) : integerSize number < 65536 :=
  Nat.lt_of_le_of_lt (key.integerSize_le number member) (by decide)

/-- `private_bytes` in the format `TraditionalOpenSSL`. -/
def der (key : RsaKey) : Bytes := writeSequence (integers key.numbers key.short)

end RsaKey

theorem length_writeAll_integers (short : ∀ number ∈ numbers, integerSize number < 65536)
    (bounded : ∀ number ∈ numbers, integerSize number ≤ size) :
    (codec.writeAll (integers numbers short)).length ≤ (4 + size) * numbers.length := by
  have each : ∀ element ∈ integers numbers short, (codec.write element).length ≤ 4 + size := by
    intro element member
    obtain ⟨number, among, rfl⟩ := List.mem_pmap.mp member
    have length : (codec.write (integer number (short number among))).length = _ := length_write _
    have front := length_lengthBytes_le (integer number (short number among)).content.length
    have content := bounded number among
    rw [length_integer] at length front
    omega
  have whole := codec.length_writeAll_le each
  rwa [integers, List.length_pmap] at whole

/-- The size in bytes by the size in bits. -/
theorem le_integerSize_iff : 256 ≤ integerSize number ↔ 2 ^ 2039 ≤ number :=
  lt_integerSize_iff (show 2039 + 1 = 8 * 255 from rfl)

theorem prime_fits_iff : 128 ≤ integerSize number ∧ integerSize number < 256 ↔
    2 ^ 1015 ≤ number ∧ number < 2 ^ 2039 := by
  have lower : 128 ≤ integerSize number ↔ 2 ^ 1015 ≤ number := lt_integerSize_iff (show 1015 + 1 = 8 * 127 from rfl)
  rw [lower, ← Nat.not_le, le_integerSize_iff, Nat.not_le]

/-- Of a key with the usual exponent the version, N, E, D, P and Q are left, unless D has
fewer than 2040 bits, or one of the primes has fewer than 1016 or more than 2039. -/
theorem buildMinimalRsaPrivkey_key (key : RsaKey) (usual : key.publicExponent = 65537) :
    ∃ minimal, readNumbers minimal = some key.minimal ∧ buildMinimalRsaPrivkey key.der =
      if 2 ^ 2039 ≤ key.privateExponent then
        if 2 ^ 1015 ≤ key.prime1 ∧ key.prime1 < 2 ^ 2039 then
          if 2 ^ 1015 ≤ key.prime2 ∧ key.prime2 < 2 ^ 2039 then .ok minimal
          else .error (minimizingError 'Q')
        else .error (minimizingError 'P')
      else .error (minimizingError 'D') := by
  have kept (number : Nat) (member : number ∈ key.minimal) : number ∈ key.numbers := List.mem_append_left _ member
  have whole := length_writeAll_integers key.short key.integerSize_le
  have part := length_writeAll_integers (fun number member => key.short number (kept number member))
    fun number member => key.integerSize_le number (kept number member)
  refine ⟨_, readNumbers_writeSequence (fun number member => key.short number (kept number member))
    (Nat.lt_of_le_of_lt part (by simp [RsaKey.minimal])), ?_⟩
  have among : key.modulus ∈ key.numbers := by simp [RsaKey.numbers, RsaKey.minimal]
  have modulus : 256 ≤ (integer key.modulus (key.short _ among)).content.length := by
    rw [length_integer, le_integerSize_iff]
    exact key.pow_le 2039 (by decide)
  have exponent : ByteOrder.big.write (integerSize key.publicExponent) key.publicExponent = [1, 0, 1] := by
    rw [usual]
    decide
  have eq := buildMinimalRsaPrivkey_eq (Nat.lt_of_le_of_lt whole (by simp [RsaKey.numbers, RsaKey.minimal])) rfl
    modulus exponent
  simp only [length_integer] at eq
  rw [RsaKey.der]
  refine eq.trans ?_
  exact if_congr le_integerSize_iff (if_congr prime_fits_iff (if_congr prime_fits_iff rfl rfl) rfl) rfl

end Rsa

def ecdsaParseError : Raised :=
  .keyUsageError "Error parsing ecdsa key. Please submit an issue!".toList

/-- `b[index] -= length` -/
def lowerByte (b : Bytes) (index : Nat) (length : UInt8) : Except Raised Bytes := do
  let byte ← byteAt b index
  setByte b index ((byte.toNat : Int) - length.toNat)

/-- `_build_minimal_ecdsa_privkey` -/
def buildMinimalEcdsaPrivkey (der : Bytes) : Except Raised Bytes := do
  if (← byteAt der 68) ≠ 0xa1 then .error ecdsaParseError
  else do
    let lenPub ← byteAt der 69
    let b := der.take (der.length - 68)
    if (← byteAt b 29) ≠ 0x30 then .error ecdsaParseError
    else do
      let b ← lowerByte b 30 lenPub
      if (← byteAt b 27) ≠ 0x04 then .error ecdsaParseError
      else do
        let b ← lowerByte b 28 lenPub
        if (← byteAt b 0) ≠ 0x30 then .error ecdsaParseError
        else if (← byteAt b 1) ≠ 0x81 then .error ecdsaParseError
        else lowerByte b 2 lenPub

section Ecdsa

open Der Element

/-- A private key on P-256, by its scalar and the two coordinates of its public key. -/
structure EcKey where
  scalar : Bytes
  coordinates : Bytes
  length_scalar : scalar.length = 32
  length_coordinates : coordinates.length = 64

def octetsTag : UInt8 := 0x04

/-- The tag of the public key, which may be left out. -/
def publicTag : UInt8 := 0xa1

/-- `id-ecPublicKey` on `prime256v1` -/
def ecAlgorithm : Element where
  tag := sequenceTag
  content := [0x06, 0x07, 0x2a, 0x86, 0x48, 0xce, 0x3d, 0x02, 0x01, 0x06, 0x08, 0x2a, 0x86, 0x48, 0xce, 0x3d, 0x03,
    0x01, 0x07]
  short := by decide

namespace EcKey

variable (key : EcKey)

def scalarElement : Element where
  tag := octetsTag
  content := key.scalar
  short := by
    rw [key.length_scalar]
    decide

/-- A bit string with the point in its uncompressed form. -/
def publicElement : Element where
  tag := publicTag
  content := 0x03 :: 0x42 :: 0x00 :: 0x04 :: key.coordinates
  short := by
    simp only [List.length_cons, key.length_coordinates]
    decide

/-- The key itself: its version, the scalar and the public key. -/
def fields : List Element := [integer 1 (by decide), key.scalarElement, key.publicElement]

theorem write_scalar : key.scalarElement.write = 0x04 :: 0x20 :: key.scalar := by
  have length : key.scalarElement.content.length = 32 := key.length_scalar
  rw [write, length]
  rfl

theorem write_public : key.publicElement.write = 0xa1 :: 0x44 :: 0x03 :: 0x42 :: 0x00 :: 0x04 :: key.coordinates := by
  have length : key.publicElement.content.length = 68 := congrArg (· + 4) key.length_coordinates
  rw [write, length]
  rfl

theorem writeAll_fields : codec.writeAll key.fields = 0x02 :: 0x01 :: 0x01 :: 0x04 :: 0x20 ::
    (key.scalar ++ 0xa1 :: 0x44 :: 0x03 :: 0x42 :: 0x00 :: 0x04 :: key.coordinates) := by
  have one : (integer 1 (by decide)).write = [0x02, 0x01, 0x01] := rfl
  simp [Codec.writeAll, codec, fields, one, write_scalar, write_public]

theorem length_fields : (codec.writeAll key.fields).length = 107 := by
  rw [writeAll_fields]
  simp [key.length_scalar, key.length_coordinates]

theorem writeSequence_fields : writeSequence key.fields = 0x30 :: 0x6b :: codec.writeAll key.fields := by
  rw [writeSequence, length_fields]
  rfl

def octets : Element where
  tag := octetsTag
  content := writeSequence key.fields
  short := by
    rw [writeSequence_fields]
    simp [length_fields]

def elements : List Element := [integer 0 (by decide), ecAlgorithm, key.octets]

/-- `private_bytes` in the format `PKCS8`. -/
def der : Bytes := writeSequence key.elements

/-- What is in front of the scalar, with the lengths of the three values that it is in. -/
def front (whole octets fields : UInt8) : Bytes :=
  0x30 :: 0x81 :: whole :: 0x02 :: 0x01 :: 0x00 :: (ecAlgorithm.write ++
    [0x04, octets, 0x30, fields, 0x02, 0x01, 0x01, 0x04, 0x20])

theorem writeAll_elements : codec.writeAll key.elements =
    0x02 :: 0x01 :: 0x00 :: (ecAlgorithm.write ++ 0x04 :: 0x6d :: 0x30 :: 0x6b :: codec.writeAll key.fields) := by
  have zero : (integer 0 (by decide)).write = [0x02, 0x01, 0x00] := rfl
  have octets : key.octets.write = 0x04 :: 0x6d :: writeSequence key.fields := by
    have length : key.octets.content.length = 109 := by
      change (writeSequence key.fields).length = 109
      simp [writeSequence_fields, length_fields]
    rw [write, length]
    rfl
  simp [Codec.writeAll, codec, elements, zero, octets, writeSequence_fields]

theorem length_elements : (codec.writeAll key.elements).length = 135 := by
  have algorithm : ecAlgorithm.write.length = 21 := rfl
  rw [writeAll_elements]
  simp [algorithm, length_fields]

theorem der_eq : key.der = front 0x87 0x6d 0x6b ++
    (key.scalar ++ 0xa1 :: 0x44 :: 0x03 :: 0x42 :: 0x00 :: 0x04 :: key.coordinates) := by
  rw [der, writeSequence, length_elements, writeAll_elements, writeAll_fields]
  rfl

end EcKey

theorem lowerByte_eq {b : Bytes} (here : b[index]? = some byte) (enough : length ≤ byte) :
    lowerByte b index length = .ok (b.set index (byte - length)) := by
  have inside : index < b.length := (List.getElem?_eq_some_iff.mp here).1
  have enough : length.toNat ≤ byte.toNat := enough
  have value : (byte.toNat : Int) - length.toNat = ((byte.toNat - length.toNat : Nat) : Int) :=
    (Int.ofNat_sub enough).symm
  have small := byte.toNat_lt
  have same : UInt8.ofNat (byte.toNat - length.toNat) = byte - length := by
    apply UInt8.toNat_inj.mp
    rw [UInt8.toNat_sub_of_le _ _ enough, UInt8.toNat_ofNat']
    omega
  simp only [lowerByte, byteAt, here, bind, Except.bind, value]
  rw [setByte_of_lt b (by omega) inside, same]

/-- The public key is cut off behind its tag and length, and the lengths are lowered to
what is left. -/
theorem buildMinimalEcdsaPrivkey_eq (key : EcKey) : buildMinimalEcdsaPrivkey key.der =
    .ok (EcKey.front 0x43 0x29 0x27 ++ (key.scalar ++ [0xa1, 0x44])) := by
  have start (whole octets fields : UInt8) : (EcKey.front whole octets fields).length = 36 := rfl
  have length : (EcKey.front 0x87 0x6d 0x6b ++ key.scalar).length = 68 := by
    rw [List.length_append, start, key.length_scalar]
  have behind := byteAt_append (EcKey.front 0x87 0x6d 0x6b ++ key.scalar)
    (0xa1 :: 0x44 :: 0x03 :: 0x42 :: 0x00 :: 0x04 :: key.coordinates)
  rw [length, List.append_assoc, ← key.der_eq] at behind
  have tag : byteAt key.der 68 = .ok 0xa1 := behind 0
  have size : byteAt key.der 69 = .ok 0x44 := behind 1
  have cut : key.der.take (key.der.length - 68) = EcKey.front 0x87 0x6d 0x6b ++ (key.scalar ++ [0xa1, 0x44]) := by
    have parts : key.der = EcKey.front 0x87 0x6d 0x6b ++ (key.scalar ++ [0xa1, 0x44]) ++
        0x03 :: 0x42 :: 0x00 :: 0x04 :: key.coordinates := by
      rw [key.der_eq]
      simp
    rw [parts]
    apply List.take_left'
    simp only [List.length_append, List.length_cons, key.length_coordinates]
    omega
  have first : lowerByte (EcKey.front 0x87 0x6d 0x6b ++ (key.scalar ++ [0xa1, 0x44])) 30 0x44 =
    .ok (EcKey.front 0x87 0x6d 0x27 ++ (key.scalar ++ [0xa1, 0x44])) := @lowerByte_eq 30 0x6b 0x44 _ rfl (by decide)
  have second : lowerByte (EcKey.front 0x87 0x6d 0x27 ++ (key.scalar ++ [0xa1, 0x44])) 28 0x44 =
    .ok (EcKey.front 0x87 0x29 0x27 ++ (key.scalar ++ [0xa1, 0x44])) := @lowerByte_eq 28 0x6d 0x44 _ rfl (by decide)
  have third : lowerByte (EcKey.front 0x87 0x29 0x27 ++ (key.scalar ++ [0xa1, 0x44])) 2 0x44 =
    .ok (EcKey.front 0x43 0x29 0x27 ++ (key.scalar ++ [0xa1, 0x44])) := @lowerByte_eq 2 0x87 0x44 _ rfl (by decide)
  have fields : byteAt (EcKey.front 0x87 0x6d 0x6b ++ (key.scalar ++ [0xa1, 0x44])) 29 = .ok 0x30 := rfl
  have octets : byteAt (EcKey.front 0x87 0x6d 0x27 ++ (key.scalar ++ [0xa1, 0x44])) 27 = .ok 0x04 := rfl
  have whole : byteAt (EcKey.front 0x87 0x29 0x27 ++ (key.scalar ++ [0xa1, 0x44])) 0 = .ok 0x30 := rfl
  have form : byteAt (EcKey.front 0x87 0x29 0x27 ++ (key.scalar ++ [0xa1, 0x44])) 1 = .ok 0x81 := rfl
  simp only [buildMinimalEcdsaPrivkey, bind, Except.bind, tag, size, cut, fields, first, octets, second, whole, form,
    third, ne_eq, not_true_eq_false, if_false]

namespace EcKey

variable (key : EcKey)

/-- What is left of the key: its version, the scalar, and the tag and the length of a public
key of 68 bytes. -/
def minimalFields : Bytes := codec.writeAll [integer 1 (by decide), key.scalarElement] ++ [publicTag, 68]

theorem length_minimalFields : key.minimalFields.length = 39 := by
  have one : (integer 1 (by decide)).write = [0x02, 0x01, 0x01] := rfl
  simp [minimalFields, Codec.writeAll, codec, one, write_scalar, key.length_scalar]

def minimalOctets : Element where
  tag := octetsTag
  content := sequenceTag :: 39 :: key.minimalFields
  short := by
    simp only [List.length_cons, key.length_minimalFields]
    decide

def minimalElements : List Element := [integer 0 (by decide), ecAlgorithm, key.minimalOctets]

theorem writeAll_minimalElements : sequenceTag :: 0x81 :: 67 :: codec.writeAll key.minimalElements =
    front 0x43 0x29 0x27 ++ (key.scalar ++ [0xa1, 0x44]) := by
  have zero : (integer 0 (by decide)).write = [0x02, 0x01, 0x00] := rfl
  have one : (integer 1 (by decide)).write = [0x02, 0x01, 0x01] := rfl
  have octets : key.minimalOctets.write = 0x04 :: 0x29 :: 0x30 :: 0x27 :: key.minimalFields := by
    have length : key.minimalOctets.content.length = 41 := congrArg (· + 2) key.length_minimalFields
    rw [write, length]
    rfl
  have fields : key.minimalFields = 0x02 :: 0x01 :: 0x01 :: 0x04 :: 0x20 :: (key.scalar ++ [0xa1, 0x44]) := by
    simp [minimalFields, Codec.writeAll, codec, one, write_scalar, publicTag]
  simp [front, minimalElements, Codec.writeAll, codec, zero, octets, fields, sequenceTag]

theorem length_minimalElements : (codec.writeAll key.minimalElements).length = 67 := by
  have lengths := congrArg List.length key.writeAll_minimalElements
  have start : (front 0x43 0x29 0x27).length = 36 := rfl
  simp only [List.length_cons, List.length_append, start, key.length_scalar, List.length_nil] at lengths
  omega

end EcKey

/-- The minimized key keeps the scalar, and every length in it is that of what it has. It is
not DER: the first length is not in its shortest form, and of the public key it has the tag
and the length, with nothing behind them. -/
theorem buildMinimalEcdsaPrivkey_key (key : EcKey) :
    readSequence key.der = some key.elements ∧ readSequence key.octets.content = some key.fields ∧
      ∃ minimal, buildMinimalEcdsaPrivkey key.der = .ok minimal ∧
        minimal = sequenceTag :: 0x81 :: 67 :: codec.writeAll key.minimalElements ∧
        (codec.writeAll key.minimalElements).length = 67 ∧ key.minimalFields.length = 39 ∧
        readSequence minimal = none ∧ codec.readAll key.minimalFields = none := by
  have nothing : codec.readAll [publicTag, 68] = none := rfl
  refine ⟨readSequence_eq_some_iff.mpr ⟨?_, rfl⟩, readSequence_eq_some_iff.mpr ⟨?_, rfl⟩, _,
    buildMinimalEcdsaPrivkey_eq key, key.writeAll_minimalElements.symm, key.length_minimalElements,
    key.length_minimalFields, rfl, codec.readAll_append_eq_none nothing _⟩
  · rw [key.length_elements]
    decide
  · rw [key.length_fields]
    decide

end Ecdsa

end Motohs.Imgtool
