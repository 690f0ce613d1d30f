import Motohs.Lib.Hex
import Motohs.Imgtool.Dependencies

/-! The options of `sign`: numbers in the notation of the language, and the TLVs that the
command line adds. -/

namespace Motohs.Imgtool

open Lib

/-- A text with other symbols than those of ASCII, as `int` sees it. -/
def asAscii (digits : Digits) (text : List Char) : List Char :=
  if text.all (·.toNat < 128) then text
  else text.map fun char =>
    if char.toNat < 127 then char
    else if isBlank char then ' '
    else (digits.value char).elim '?' Nat.digitChar

/-- Digits, with single underscores between them, and what follows. -/
def scanDigits (base value : Nat) (after : Bool) : List Char → Option (Nat × List Char)
  | [] => if after then none else some (value, [])
  | char :: rest =>
    if char = '_' then if after then none else scanDigits base value true rest
    else
      match hexDigit char with
      | some digit =>
        if digit < base then scanDigits base (value * base + digit) false rest
        else if after then none else some (value, char :: rest)
      | none => if after then none else some (value, char :: rest)

/-- The base that a prefix asks for. -/
def prefixBase (mark : Char) : Option Nat :=
  if mark = 'x' ∨ mark = 'X' then some 16
  else if mark = 'o' ∨ mark = 'O' then some 8
  else if mark = 'b' ∨ mark = 'B' then some 2
  else none

/-- Behind a prefix one underscore is allowed. -/
def scanPrefixed (base : Nat) : List Char → Option (Nat × List Char)
  | '_' :: rest => scanDigits base 0 true rest
  | rest => scanDigits base 0 true rest

/-- A number that begins with a zero, but for a prefix, has to be zero. -/
def scanZeros (text : List Char) : Option (Nat × List Char) := (scanDigits 10 0 true text).filter (·.1 = 0)

def scanNumber : List Char → Option (Nat × List Char)
  | '0' :: mark :: rest =>
    match prefixBase mark with
    | some base => scanPrefixed base rest
    | none => scanZeros ('0' :: mark :: rest)
  | text => scanDigits 10 0 true text

def scanSign : List Char → Bool × List Char
  | '-' :: rest => (true, rest)
  | '+' :: rest => (false, rest)
  | rest => (false, rest)

/-- `int(text, 0)` -/
def intLiteral (digits : Digits) (text : List Char) : Option Int := do
  let (negative, rest) := scanSign ((asAscii digits text).dropWhile isSpace)
  let (value, rest) ← scanNumber rest
  if (rest.dropWhile isSpace).isEmpty then some (if negative then -value else value) else none

/-- `hex(number)` -/
def pythonHex : Int → List Char
  | .ofNat number => '0' :: 'x' :: Nat.toDigits 16 number
  | .negSucc number => '-' :: '0' :: 'x' :: Nat.toDigits 16 (number + 1)

def validateVersion (digits : Digits) (value : List Char) : Except Raised (List Char) :=
  match decodeVersion digits value with
  | .ok _ => .ok value
  | .error message => .error (.badParameter message)

def integerError (value : List Char) : Raised :=
  .badParameter (value ++ " is not a valid integer. Please use code literals ".toList ++
    "prefixed with 0b/0B, 0o/0O, or 0x/0X as necessary.".toList)

/-- No other letter becomes one of `auto` in lower case. -/
def validateSecurityCounter (digits : Digits) : Option (List Char) → Except Raised SecurityCounter
  | none => .ok .absent
  | some value =>
    if value.map Char.toLower = "auto".toList then .ok .auto
    else
      match intLiteral digits value with
      | some counter => .ok (.value counter)
      | none => .error (integerError value)

/-- A size that a header of the image fits into. -/
structure HeaderSize where
  size : Nat
  sized : imageHeaderSize ≤ size

/-- The size that the Makefile asks for, which is that of the header. -/
def HeaderSize.least : HeaderSize := ⟨imageHeaderSize, Nat.le_refl _⟩

def validateHeaderSize (value : Int) : Except Raised HeaderSize :=
  if fits : (imageHeaderSize : Int) ≤ value then
    .ok ⟨value.toNat, (Int.le_toNat (Int.le_trans (Int.natCast_nonneg _) fits)).mpr fits⟩
  else .error (.badParameter ("Minimum value for -H/--header-size is ".toList ++ decimal imageHeaderSize))

/-- `convert` of `BasedIntParamType` -/
def convertInteger (digits : Digits) (value : List Char) : Except Raised Int :=
  match intLiteral digits value with
  | some number => .ok number
  | none => .error (integerError value)

/-- The value of a TLV of the command line. -/
def customPayload (value : List Char) : Except Raised Bytes :=
  if "0x".toList.isPrefixOf value then
    if (value.drop 2).length % 2 ≠ 0 then .error (.usageError "Custom TLV length is odd.".toList)
    else
      match fromHex (value.drop 2) with
      | some payload => .ok payload
      | none => .error .valueError
  else .ok (value.flatMap String.utf8EncodeChar)

def customExists (tag : Int) : Raised :=
  .usageError ("Custom TLV ".toList ++ pythonHex tag ++ " already exists.".toList)

def customConflict (tag : Int) : Raised :=
  .usageError ("Custom TLV ".toList ++ pythonHex tag ++ " conflicts with predefined TLV.".toList)

/-- `TLV_VALUES.values()` -/
def tlvValues : List Int := tlvKinds.map fun kind => (kind.value : Int)

/-- The loop over `--custom-tlv`, with the TLVs so far in the order of the dictionary. -/
def customTlvs (digits : Digits) : List (List Char × List Char) → List (Int × Bytes) →
    Except Raised (List (Int × Bytes))
  | [], tlvs => .ok tlvs
  | (tagText, value) :: rest, tlvs =>
    match intLiteral digits tagText with
    | none => .error .valueError
    | some tag =>
      if tag ∈ tlvs.map Prod.fst then .error (customExists tag)
      else if tag ∈ tlvValues then .error (customConflict tag)
      else do
        let payload ← customPayload value
        customTlvs digits rest (tlvs ++ [(tag, payload)])

section Custom

variable {digits : Digits}

/-- Tag and value of an option, as they are read. -/
def CustomTlv (digits : Digits) (option : List Char × List Char) (tlv : Int × Bytes) : Prop :=
  intLiteral digits option.1 = some tlv.1 ∧ customPayload option.2 = .ok tlv.2

theorem customTlvs_step {before : List (Int × Bytes)} : customTlvs digits (option :: rest) before = .ok tlvs ↔
    ∃ tlv, CustomTlv digits option tlv ∧ tlv.1 ∉ before.map Prod.fst ∧ tlv.1 ∉ tlvValues ∧
      customTlvs digits rest (before ++ [tlv]) = .ok tlvs := by
  obtain ⟨tagText, value⟩ := option
  rw [customTlvs]
  cases literal : intLiteral digits tagText with
  | none => simp [CustomTlv, literal]
  | some tag =>
    by_cases fresh : tag ∈ before.map Prod.fst
    · simp only [fresh, if_true]
      refine iff_of_false (by simp) ?_
      rintro ⟨tlv, ⟨read, _⟩, other, _⟩
      rw [literal] at read
      exact other (Option.some.inj read ▸ fresh)
    · simp only [fresh, if_false]
      by_cases predefined : tag ∈ tlvValues
      · simp only [predefined, if_true]
        refine iff_of_false (by simp) ?_
        rintro ⟨tlv, ⟨read, _⟩, _, other, _⟩
        rw [literal] at read
        exact other (Option.some.inj read ▸ predefined)
      · simp only [predefined, if_false, bind_eq_ok_iff]
        constructor
        · rintro ⟨payload, made, rest⟩
          exact ⟨(tag, payload), ⟨literal, made⟩, fresh, predefined, rest⟩
        · rintro ⟨⟨_, payload⟩, ⟨read, made⟩, _, _, rest⟩
          rw [literal] at read
          cases read
          exact ⟨payload, made, rest⟩

theorem customTlvs_from_iff {before : List (Int × Bytes)} (distinct : (before.map Prod.fst).Nodup) :
    customTlvs digits options before = .ok tlvs ↔ ∃ added, tlvs = before ++ added ∧
      List.Forall₂ (CustomTlv digits) options added ∧ (tlvs.map Prod.fst).Nodup ∧
      ∀ tlv ∈ added, tlv.1 ∉ tlvValues := by
  induction options generalizing before with
  | nil =>
    constructor
    · intro done
      cases done
      exact ⟨[], (List.append_nil _).symm, .nil, distinct, by simp⟩
    · rintro ⟨added, rfl, read, _⟩
      cases read
      rw [List.append_nil]
      rfl
  | cons option rest ih =>
    have more (tlv : Int × Bytes) (fresh : tlv.1 ∉ before.map Prod.fst) :
        ((before ++ [tlv]).map Prod.fst).Nodup := by
      rw [List.map_append, List.nodup_append]
      refine ⟨distinct, List.pairwise_singleton _ _, ?_⟩
      rintro _ member _ last rfl
      exact fresh (List.mem_singleton.mp last ▸ member)
    rw [customTlvs_step]
    constructor
    · rintro ⟨tlv, read, fresh, other, rest⟩
      obtain ⟨added, same, reads, nodup, others⟩ := (ih (more tlv fresh)).mp rest
      refine ⟨tlv :: added, ?_, .cons read reads, nodup, List.forall_mem_cons.mpr ⟨other, others⟩⟩
      rw [same, List.append_assoc, List.singleton_append]
    · rintro ⟨added, rfl, reads, nodup, others⟩
      cases reads with
      | @cons _ tlv _ added read reads =>
        obtain ⟨other, others⟩ := List.forall_mem_cons.mp others
        have fresh : tlv.1 ∉ before.map Prod.fst := by
          rw [List.map_append, List.nodup_append] at nodup
          exact fun member => nodup.2.2 _ member _ List.mem_cons_self rfl
        have same : before ++ tlv :: added = before ++ [tlv] ++ added := by simp
        exact ⟨tlv, read, fresh, other, (ih (more tlv fresh)).mpr ⟨added, same, reads, nodup, others⟩⟩

theorem customTlvs_from_nil_iff : customTlvs digits options [] = .ok tlvs ↔
    ∃ added, tlvs = [] ++ added ∧ List.Forall₂ (CustomTlv digits) options added ∧ (tlvs.map Prod.fst).Nodup ∧
      ∀ tlv ∈ added, tlv.1 ∉ tlvValues :=
  customTlvs_from_iff (show (([] : List (Int × Bytes)).map Prod.fst).Nodup from List.nodup_nil)

/-- The TLVs of the command line are those of its options, in their order, and they are
taken just when every option can be read, no tag is there twice and none is predefined. -/
theorem customTlvs_eq_ok_iff : customTlvs digits options [] = .ok tlvs ↔
    List.Forall₂ (CustomTlv digits) options tlvs ∧ (tlvs.map Prod.fst).Nodup ∧ ∀ tlv ∈ tlvs, tlv.1 ∉ tlvValues := by
  rw [customTlvs_from_nil_iff]
  simp

end Custom

end Motohs.Imgtool
