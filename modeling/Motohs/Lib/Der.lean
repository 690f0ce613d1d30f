import Mathlib.Data.Nat.Size
import Motohs.Lib.Codec

/-! DER: elements of a tag, a length in its shortest form and a content of less than 64 KiB,
sequences of them, and the natural numbers among them. -/

namespace Lib.Der

def lengthBytes (size : Nat) : Bytes :=
  if size < 128 then [UInt8.ofNat size]
  else if size < 256 then [0x81, UInt8.ofNat size]
  else [0x82, UInt8.ofNat (size / 256), UInt8.ofNat size]

theorem lengthBytes_of_le (long : 256 ≤ size) :
    lengthBytes size = [0x82, UInt8.ofNat (size / 256), UInt8.ofNat size] := by
  rw [lengthBytes, if_neg (by omega), if_neg (by omega)]

theorem length_lengthBytes_le (size : Nat) : (lengthBytes size).length ≤ 3 := by
  unfold lengthBytes
  split
  · simp
  · split <;> simp

/-- The length at the front, and what follows it. A longer form than it takes is refused. -/
def readLength : Bytes → Option (Nat × Bytes)
  | [] => none
  | first :: rest =>
    if first < 0x80 then some (first.toNat, rest)
    else if first = 0x81 then
      match rest with
      | low :: rest => if 128 ≤ low.toNat then some (low.toNat, rest) else none
      | [] => none
    else if first = 0x82 then
      match rest with
      | high :: low :: rest =>
        if high = 0 then none else some (256 * high.toNat + low.toNat, rest)
      | _ => none
    else none

theorem readLength_lengthBytes (short : size < 65536) (rest : Bytes) :
    readLength (lengthBytes size ++ rest) = some (size, rest) := by
  unfold lengthBytes
  split
  · rename_i small
    have whole : (UInt8.ofNat size).toNat = size := by
      rw [UInt8.toNat_ofNat']
      omega
    have form : UInt8.ofNat size < 0x80 := by
      rw [UInt8.lt_iff_toNat_lt, whole]
      exact small
    simp [readLength, form, whole]
  · split
    · have whole : (UInt8.ofNat size).toNat = size := by
        rw [UInt8.toNat_ofNat']
        omega
      have long : 128 ≤ size := by omega
      simp [readLength, whole, long]
    · have high : (UInt8.ofNat (size / 256)).toNat = size / 256 := by
        rw [UInt8.toNat_ofNat']
        omega
      have nonzero : UInt8.ofNat (size / 256) ≠ 0 := by
        intro zero
        rw [zero] at high
        change 0 = size / 256 at high
        omega
      simp [readLength, high, nonzero]
      omega

theorem lengthBytes_short {first : UInt8} (form : first < 0x80) : lengthBytes first.toNat = [first] := by
  have small : first.toNat < 128 := UInt8.lt_iff_toNat_lt.mp form
  rw [lengthBytes, if_pos small, UInt8.ofNat_toNat]

theorem lengthBytes_one {low : UInt8} (long : 128 ≤ low.toNat) : lengthBytes low.toNat = [0x81, low] := by
  rw [lengthBytes, if_neg (Nat.not_lt.mpr long), if_pos low.toNat_lt, UInt8.ofNat_toNat]

theorem lengthBytes_two {high : UInt8} (nonzero : high ≠ 0) (low : UInt8) :
    lengthBytes (256 * high.toNat + low.toNat) = [0x82, high, low] := by
  have small : low.toNat < 256 := low.toNat_lt
  have some : high.toNat ≠ 0 := fun zero => nonzero (UInt8.toNat_inj.mp zero)
  have front : (256 * high.toNat + low.toNat) / 256 = high.toNat := by omega
  have back : UInt8.ofNat (256 * high.toNat + low.toNat) = low := by
    apply UInt8.toNat_inj.mp
    rw [UInt8.toNat_ofNat']
    omega
  rw [lengthBytes_of_le (by omega), front, back, UInt8.ofNat_toNat]

theorem lengthBytes_of_readLength (read : readLength bytes = some (size, rest)) :
    size < 65536 ∧ bytes = lengthBytes size ++ rest := by
  unfold readLength at read
  split at read
  · cases read
  · rename_i first after
    have small : first.toNat < 256 := first.toNat_lt
    split at read
    · rename_i form
      cases read
      rw [lengthBytes_short form]
      exact ⟨by omega, rfl⟩
    · split at read
      · rename_i form
        split at read
        · rename_i low after
          split at read
          · rename_i long
            cases read
            rw [lengthBytes_one long, form]
            exact ⟨Nat.lt_trans low.toNat_lt (by decide), rfl⟩
          · cases read
        · cases read
      · split at read
        · rename_i form
          split at read
          · rename_i high low after
            split at read
            · cases read
            · rename_i nonzero
              cases read
              have one : high.toNat < 256 := high.toNat_lt
              have two : low.toNat < 256 := low.toNat_lt
              rw [lengthBytes_two nonzero, form]
              exact ⟨by omega, rfl⟩
          · cases read
        · cases read

/-- A length in one byte is none of the forms of longer ones. -/
theorem ofNat_ne_form {form : UInt8} (high : 128 ≤ form.toNat) (one : size < 128) : UInt8.ofNat size ≠ form := by
  rintro rfl
  rw [UInt8.toNat_ofNat'] at high
  omega

structure Element where
  tag : UInt8
  content : Bytes
  short : content.length < 65536
  deriving DecidableEq, Repr

namespace Element

def of? (tag : UInt8) (content : Bytes) : Option Element :=
  if short : content.length < 65536 then some ⟨tag, content, short⟩ else none

def write (element : Element) : Bytes :=
  element.tag :: (lengthBytes element.content.length ++ element.content)

def read : Bytes → Option (Element × Bytes)
  | [] => none
  | tag :: bytes => do
    let (size, rest) ← readLength bytes
    if size ≤ rest.length then (of? tag (rest.take size)).map (·, rest.drop size) else none

theorem of?_eq_some_iff {tag : UInt8} {content : Bytes} :
    of? tag content = some element ↔ element.tag = tag ∧ element.content = content := by
  unfold of?
  split
  · constructor
    · intro same
      cases same
      exact ⟨rfl, rfl⟩
    · rintro ⟨rfl, rfl⟩
      rfl
  · rename_i long
    refine iff_of_false (by simp) ?_
    rintro ⟨_, rfl⟩
    exact long element.short

theorem length_write (element : Element) :
    element.write.length = 1 + (lengthBytes element.content.length).length + element.content.length := by
  rw [write, List.length_cons, List.length_append]
  omega

theorem read_write (element : Element) (rest : Bytes) : read (element.write ++ rest) = some (element, rest) := by
  have front := readLength_lengthBytes element.short (element.content ++ rest)
  have whole : of? element.tag element.content = some element := of?_eq_some_iff.mpr ⟨rfl, rfl⟩
  rw [write, List.cons_append, read, List.append_assoc, front]
  simp [whole]

theorem write_read (bytes : Bytes) (element : Element) (rest : Bytes) (found : read bytes = some (element, rest)) :
    bytes = element.write ++ rest := by
  cases bytes with
  | nil => cases found
  | cons tag bytes =>
    obtain ⟨⟨size, after⟩, front, later⟩ := Option.bind_eq_some_iff.mp found
    obtain ⟨_, rfl⟩ := lengthBytes_of_readLength front
    dsimp only at later
    split at later
    · rename_i fits
      obtain ⟨made, one, same⟩ := Option.map_eq_some_iff.mp later
      cases same
      obtain ⟨rfl, content⟩ := of?_eq_some_iff.mp one
      have length : element.content.length = size := by rw [content, List.length_take, Nat.min_eq_left fits]
      rw [write, length, content, List.cons_append, List.append_assoc, List.take_append_drop]
    · cases later

/-- The elements one after the other, as they are in a sequence. -/
def codec : Codec Element where
  write
  read
  nonempty _ := List.cons_ne_nil _ _
  read_write
  write_read

def integerTag : UInt8 := 0x02

def sequenceTag : UInt8 := 0x30

def writeSequence (elements : List Element) : Bytes :=
  sequenceTag :: (lengthBytes (codec.writeAll elements).length ++ codec.writeAll elements)

theorem writeSequence_of_le {elements : List Element} (long : 256 ≤ (codec.writeAll elements).length) :
    writeSequence elements = sequenceTag :: 0x82 :: UInt8.ofNat ((codec.writeAll elements).length / 256) ::
      UInt8.ofNat (codec.writeAll elements).length :: codec.writeAll elements := by
  rw [writeSequence, lengthBytes_of_le long]
  rfl

/-- The elements of a sequence, behind which nothing follows. -/
def readSequence (bytes : Bytes) : Option (List Element) := do
  let (element, rest) ← read bytes
  if element.tag = sequenceTag ∧ rest = [] then codec.readAll element.content else none

/-- Just what is written of elements is read as their sequence. -/
theorem readSequence_eq_some_iff {elements : List Element} : readSequence bytes = some elements ↔
    (codec.writeAll elements).length < 65536 ∧ bytes = writeSequence elements := by
  constructor
  · intro found
    obtain ⟨⟨element, rest⟩, front, later⟩ := Option.bind_eq_some_iff.mp found
    dsimp only at later
    split at later
    · rename_i whole
      obtain ⟨tag, rfl⟩ := whole
      have content := codec.readAll_eq_some_iff.mp later
      rw [writeSequence, ← content, ← tag]
      exact ⟨element.short, by simpa [write] using write_read _ _ _ front⟩
    · cases later
  · rintro ⟨short, rfl⟩
    have front := read_write ⟨sequenceTag, codec.writeAll elements, short⟩ []
    rw [List.append_nil] at front
    change read (writeSequence elements) = _ at front
    simp [readSequence, front, codec.readAll_eq_some_iff]

end Element

/-- The bytes of a natural number, which leave room for a sign. -/
def integerSize (number : Nat) : Nat := (number.log2 + 1) / 8 + 1

theorem lt_pow_integerSize (number : Nat) : number < 256 ^ integerSize number := by
  have bits : number.log2 + 1 ≤ 8 * integerSize number := by
    unfold integerSize
    omega
  calc number < 2 ^ (number.log2 + 1) := Nat.lt_log2_self
    _ ≤ 2 ^ (8 * integerSize number) := Nat.pow_le_pow_right Nat.two_pos bits
    _ = 256 ^ integerSize number := Nat.pow_mul 2 8 _

/-- The number takes more bytes than that, just when it has as many bits, the sign left
out. -/
theorem lt_integerSize_iff (length : bits + 1 = 8 * size) : size < integerSize number ↔ 2 ^ bits ≤ number := by
  have log : size < integerSize number ↔ bits ≤ number.log2 := by
    unfold integerSize
    omega
  rw [log]
  by_cases zero : number = 0
  · have power := Nat.two_pow_pos bits
    subst zero
    rw [Nat.log2_zero]
    omega
  · exact Nat.le_log2 zero

namespace Element

def integer (number : Nat) (short : integerSize number < 65536) : Element where
  tag := integerTag
  content := ByteOrder.big.write (integerSize number) number
  short := by rwa [ByteOrder.length_write]

theorem length_integer (short : integerSize number < 65536) :
    (integer number short).content.length = integerSize number :=
  ByteOrder.length_write .big (integerSize number) number

/-- The natural number that the element is, in its shortest form. -/
def natural? (element : Element) : Option Nat :=
  let number := ByteOrder.big.read element.content
  if element.tag = integerTag ∧ element.content.length = integerSize number then some number else none

theorem natural?_integer (short : integerSize number < 65536) : (integer number short).natural? = some number := by
  have read := ByteOrder.big.read_write (lt_pow_integerSize number)
  simp [natural?, integer, read, ByteOrder.length_write]

def integers (numbers : List Nat) (short : ∀ number ∈ numbers, integerSize number < 65536) : List Element :=
  numbers.pmap integer short

/-- The natural numbers of a sequence that has nothing else. -/
def readNumbers (bytes : Bytes) : Option (List Nat) := (readSequence bytes).bind fun elements =>
  elements.mapM natural?

theorem mapM_natural?_integers (short : ∀ number ∈ numbers, integerSize number < 65536) :
    (integers numbers short).mapM natural? = some numbers := by
  induction numbers with
  | nil => rfl
  | cons number numbers ih =>
    have here := natural?_integer (short number (by simp))
    have others := ih fun other member => short other (by simp [member])
    rw [integers] at others ⊢
    rw [List.pmap, List.mapM_cons, here, others]
    rfl

theorem readNumbers_writeSequence (short : ∀ number ∈ numbers, integerSize number < 65536)
    (whole : (codec.writeAll (integers numbers short)).length < 65536) :
    readNumbers (writeSequence (integers numbers short)) = some numbers := by
  rw [readNumbers, readSequence_eq_some_iff.mpr ⟨whole, rfl⟩]
  exact mapM_natural?_integers short

end Element

end Lib.Der
