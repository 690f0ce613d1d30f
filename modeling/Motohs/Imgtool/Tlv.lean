import Motohs.Lib.Codec
import Motohs.Lib.Loop

/-! The TLV areas of an image: the class `TLV` as the tool writes them, and how an area
is read back record by record. -/

namespace Motohs.Imgtool

open Lib

/-- What a call of the tool can raise. -/
inductive Raised where
  | usageError (message : List Char)
  | badParameter (message : List Char)
  | structError
  | keyError
  | attributeError
  | indexError
  | valueError
  | hexError
  /-- The usage errors of the key classes. -/
  | keyUsageError (message : List Char)
  deriving DecidableEq, Repr

/-- The keys of `TLV_VALUES`. -/
inductive TlvKind where
  | keyHash
  | pubKey
  | sha256
  | rsa2048
  | ecdsa224
  | ecdsa256
  | rsa3072
  | ed25519
  | encRsa2048
  | encKw128
  | encEc256
  | encX25519
  | dependency
  | secCnt
  | bootRecord
  deriving DecidableEq, Repr

def tlvKinds : List TlvKind :=
  [.keyHash, .pubKey, .sha256, .rsa2048, .ecdsa224, .ecdsa256, .rsa3072, .ed25519, .encRsa2048,
    .encKw128, .encEc256, .encX25519, .dependency, .secCnt, .bootRecord]

/-- `TLV_VALUES[kind]` -/
def TlvKind.value : TlvKind → Nat
  | .keyHash => 0x01
  | .pubKey => 0x02
  | .sha256 => 0x10
  | .rsa2048 => 0x20
  | .ecdsa224 => 0x21
  | .ecdsa256 => 0x22
  | .rsa3072 => 0x23
  | .ed25519 => 0x24
  | .encRsa2048 => 0x30
  | .encKw128 => 0x31
  | .encEc256 => 0x32
  | .encX25519 => 0x33
  | .dependency => 0x40
  | .secCnt => 0x50
  | .bootRecord => 0x60

theorem TlvKind.value_injective : Function.Injective TlvKind.value := by
  have inverse (kind : TlvKind) : tlvKinds.find? (·.value = kind.value) = some kind := by
    cases kind <;> rfl
  intro kind other same
  have found := inverse kind
  rw [same, inverse other] at found
  exact (Option.some.inj found).symm

def tlvSize : Nat := 4

def tlvInfoSize : Nat := 4

def tlvInfoMagic : Nat := 0x6907

def tlvProtInfoMagic : Nat := 0x6908

/-- `struct.pack` -/
def structPack (endian : ByteOrder) (format : List Code) (values : List Int) : Except Raised Bytes :=
  match pack endian format values with
  | some bytes => .ok bytes
  | none => .error .structError

/-- `struct.unpack` -/
def structUnpack (endian : ByteOrder) (format : List Code) (bytes : Bytes) : Except Raised (List Nat) :=
  match unpack endian format bytes with
  | some values => .ok values
  | none => .error .structError

theorem structPack_eq_ok_iff : structPack endian format values = .ok bytes ↔
    pack endian format values = some bytes := by
  unfold structPack
  cases pack endian format values <;> simp

theorem structUnpack_eq_ok_iff : structUnpack endian format bytes = .ok values ↔
    unpack endian format bytes = some values := by
  unfold structUnpack
  cases unpack endian format bytes <;> simp

structure Tlv where
  endian : ByteOrder
  magic : Nat
  buf : Bytes

namespace Tlv

def new (endian : ByteOrder) (magic : Nat) : Tlv := ⟨endian, magic, []⟩

/-- `len(self)` -/
def len (tlv : Tlv) : Nat := tlvInfoSize + tlv.buf.length

def add (kind : Int) (payload : Bytes) (tlv : Tlv) : Except Raised Tlv := do
  let buf ← structPack tlv.endian [.B, .B, .H] [kind, 0, payload.length]
  pure { tlv with buf := tlv.buf ++ (buf ++ payload) }

def get (tlv : Tlv) : Except Raised Bytes :=
  if tlv.buf.length = 0 then .ok []
  else do
    let header ← structPack tlv.endian [.H, .H] [tlv.magic, tlv.len]
    pure (header ++ tlv.buf)

def addAll (tlvs : List (Int × Bytes)) (tlv : Tlv) : Except Raised Tlv :=
  tlvs.foldlM (fun tlv (kind, payload) => tlv.add kind payload) tlv

end Tlv

/-- A record that has room in its header for its kind and its length. -/
structure Record where
  kind : Nat
  payload : Bytes
  kindSmall : kind < 256
  short : payload.length < 65536

namespace Record

@[ext] theorem ext {one other : Record} (kind : one.kind = other.kind)
    (payload : one.payload = other.payload) : one = other := by
  cases one
  cases other
  congr

def header (record : Record) : List Int := [record.kind, 0, record.payload.length]

def write (endian : ByteOrder) (record : Record) : Bytes :=
  encode endian [.B, .B, .H] record.header ++ record.payload

/-- The record of that kind and payload, if it has room for them. -/
def of? (kind : Nat) (payload : Bytes) : Option Record :=
  if fits : kind < 256 ∧ payload.length < 65536 then some ⟨kind, payload, fits.1, fits.2⟩ else none

def read (endian : ByteOrder) (bytes : Bytes) : Option (Record × Bytes) :=
  match unpack endian [.B, .B, .H] (bytes.take tlvSize) with
  | some [kind, 0, length] =>
    if length ≤ (bytes.drop tlvSize).length then
      (of? kind ((bytes.drop tlvSize).take length)).map (·, (bytes.drop tlvSize).drop length)
    else none
  | _ => none

theorem of?_eq_some_iff {kind : Nat} {payload : Bytes} : of? kind payload = some record ↔
    record.kind = kind ∧ record.payload = payload := by
  unfold of?
  constructor
  · intro found
    split at found
    · cases found
      exact ⟨rfl, rfl⟩
    · cases found
  · rintro ⟨rfl, rfl⟩
    rw [dif_pos ⟨record.kindSmall, record.short⟩]

theorem fits_header (record : Record) : Fits [.B, .B, .H] record.header := by
  have kindSmall := record.kindSmall
  have short := record.short
  simp [Fits, header]
  omega

theorem pack_header (endian : ByteOrder) (record : Record) :
    pack endian [.B, .B, .H] record.header = some (encode endian [.B, .B, .H] record.header) :=
  pack_eq_some_iff.mpr ⟨record.fits_header, rfl⟩

theorem length_header (endian : ByteOrder) (record : Record) :
    (encode endian [.B, .B, .H] record.header).length = tlvSize :=
  length_pack (record.pack_header endian)

theorem length_write (endian : ByteOrder) (record : Record) :
    (record.write endian).length = tlvSize + record.payload.length := by
  rw [write, List.length_append, length_header]

theorem read_write (endian : ByteOrder) (record : Record) (rest : Bytes) :
    read endian (record.write endian ++ rest) = some (record, rest) := by
  have length := record.length_header endian
  have unpacked := unpack_pack (record.pack_header endian)
  have values : record.header.map Int.toNat = [record.kind, 0, record.payload.length] := by
    simp [header]
  rw [read, write, List.append_assoc, List.take_left' length, List.drop_left' length, unpacked, values]
  simp only [List.take_left, List.drop_left]
  rw [if_pos (by simp), of?_eq_some_iff.mpr ⟨rfl, rfl⟩, Option.map_some]

theorem write_read {endian : ByteOrder} {bytes rest : Bytes} {record : Record}
    (found : read endian bytes = some (record, rest)) : bytes = record.write endian ++ rest := by
  unfold read at found
  split at found
  · rename_i kind length unpacked
    split at found
    · rename_i fits
      obtain ⟨record, present, same⟩ := Option.map_eq_some_iff.mp found
      cases same
      obtain ⟨rfl, payload⟩ := of?_eq_some_iff.mp present
      obtain ⟨size, values⟩ := unpack_eq_some_iff.mp unpacked
      have solid : Code.pad ∉ [Code.B, Code.B, Code.H] := by simp
      obtain ⟨_, written⟩ : _ ∧ encode endian _ _ = _ := encode_decode solid size
      have whole : ((bytes.drop tlvSize).take length).length = length := by
        rw [List.length_take]
        omega
      rw [values] at written
      rw [write, header, payload, whole]
      change encode endian [.B, .B, .H] [(record.kind : Int), 0, length] = _ at written
      rw [written, List.append_assoc, List.take_append_drop, List.take_append_drop]
    · cases found
  · cases found

/-- The records of a TLV area, one after the other. -/
def codec (endian : ByteOrder) : Codec Record where
  write := write endian
  read := read endian
  nonempty record empty := by
    have length := record.length_write endian
    rw [empty, tlvSize, List.length_nil] at length
    omega
  read_write := read_write endian
  write_read _ _ _ := write_read

end Record

namespace Tlv

/-- What `add` appends is a record, and only a record can be added. -/
theorem add_eq_ok_iff {tlv next : Tlv} : tlv.add kind payload = .ok next ↔
    ∃ record : Record, record.kind = kind ∧ record.payload = payload ∧
      next = { tlv with buf := tlv.buf ++ record.write tlv.endian } := by
  constructor
  · intro added
    obtain ⟨header, packed, same⟩ := bind_eq_ok_iff.mp added
    obtain ⟨fits, written⟩ := pack_eq_some_iff.mp (structPack_eq_ok_iff.mp packed)
    have ranges := fits
    simp [Fits] at ranges
    have whole : (kind.toNat : Int) = kind := by omega
    refine ⟨⟨kind.toNat, payload, by omega, by omega⟩, whole, rfl, ?_⟩
    cases same
    rw [← written]
    simp [Record.write, Record.header, whole]
  · rintro ⟨record, rfl, rfl, rfl⟩
    exact bind_eq_ok_iff.mpr ⟨_, structPack_eq_ok_iff.mpr (record.pack_header tlv.endian), rfl⟩

/-- What `addAll` appends is one record for each TLV. -/
theorem addAll_eq_ok_iff {tlv next : Tlv} {tlvs : List (Int × Bytes)} :
    tlv.addAll tlvs = .ok next ↔
      ∃ records : List Record, records.map (fun record => ((record.kind : Int), record.payload)) = tlvs ∧
        next = { tlv with buf := tlv.buf ++ (Record.codec tlv.endian).writeAll records } := by
  induction tlvs generalizing tlv with
  | nil =>
    constructor
    · intro done
      cases done
      exact ⟨[], rfl, by simp [Codec.writeAll]⟩
    · rintro ⟨records, none, rfl⟩
      rw [List.map_eq_nil_iff.mp none]
      simp [Codec.writeAll, addAll, pure, Except.pure]
  | cons first rest ih =>
    obtain ⟨kind, payload⟩ := first
    rw [addAll, List.foldlM_cons, bind_eq_ok_iff]
    constructor
    · rintro ⟨middle, added, others⟩
      obtain ⟨record, rfl, rfl, rfl⟩ := add_eq_ok_iff.mp added
      obtain ⟨records, rfl, rfl⟩ := ih.mp others
      refine ⟨record :: records, rfl, ?_⟩
      rw [Codec.writeAll_cons, ← List.append_assoc]
      rfl
    · rintro ⟨records, same, rfl⟩
      obtain ⟨record, records, rfl, one, rfl⟩ := List.map_eq_cons_iff.mp same
      cases one
      refine ⟨_, add_eq_ok_iff.mpr ⟨record, rfl, rfl, rfl⟩, ih.mpr ⟨records, rfl, ?_⟩⟩
      rw [Codec.writeAll_cons, ← List.append_assoc]
      rfl

end Tlv

/-- The header of an area. -/
def writeInfo (endian : ByteOrder) (magic total : Nat) : Bytes := encode endian [.H, .H] [magic, total]

theorem length_writeInfo (endian : ByteOrder) (magic total : Nat) :
    (writeInfo endian magic total).length = tlvInfoSize := by
  simp [writeInfo, encode, ByteOrder.length_write, tlvInfoSize]

/-- The magic numbers fit, so the header can be written when the length fits. -/
theorem pack_info_iff {magic total : Nat} (small : magic < 65536) :
    pack endian [.H, .H] [magic, total] = some bytes ↔
      total < 65536 ∧ writeInfo endian magic total = bytes := by
  rw [pack_eq_some_iff, writeInfo]
  apply and_congr_left'
  simp [Fits]
  omega

theorem unpack_info (endian : ByteOrder) {magic total : Nat} (small : magic < 65536) (fits : total < 65536) :
    unpack endian [.H, .H] (writeInfo endian magic total) = some [magic, total] :=
  unpack_pack ((pack_info_iff small).mpr ⟨fits, rfl⟩)

/-- An area as it stands in an image: nothing at all when it has no records. -/
def writeArea (endian : ByteOrder) (magic : Nat) (records : List Record) : Bytes :=
  if records = [] then []
  else
    let buf := (Record.codec endian).writeAll records
    writeInfo endian magic (tlvInfoSize + buf.length) ++ buf

/-- The records of the area with that magic that the bytes begin with, and what follows
the area. -/
def readArea (endian : ByteOrder) (magic : Nat) (bytes : Bytes) : Option (List Record × Bytes) :=
  match unpack endian [.H, .H] (bytes.take tlvInfoSize) with
  | some [found, total] =>
    if found = magic ∧ tlvInfoSize ≤ total ∧ total ≤ bytes.length then
      ((Record.codec endian).readAll ((bytes.take total).drop tlvInfoSize)).map (·, bytes.drop total)
    else none
  | _ => none

theorem writeAll_eq_nil_iff (endian : ByteOrder) {records : List Record} :
    (Record.codec endian).writeAll records = [] ↔ records = [] := by
  constructor
  · intro empty
    have length := (Record.codec endian).length_le_writeAll records
    rw [empty] at length
    exact List.length_eq_zero_iff.mp (Nat.le_zero.mp length)
  · rintro rfl
    rfl

section Area

variable {endian : ByteOrder} {magic : Nat} {records : List Record}

theorem length_writeArea (present : records ≠ []) : (writeArea endian magic records).length =
    tlvInfoSize + ((Record.codec endian).writeAll records).length := by
  rw [writeArea, if_neg present, List.length_append, length_writeInfo]

/-- `get` is the area of the records that were added, if its length can be written. -/
theorem get_eq_ok_iff (small : magic < 65536) :
    Tlv.get ⟨endian, magic, (Record.codec endian).writeAll records⟩ = .ok bytes ↔
      (writeArea endian magic records).length < 65536 ∧ writeArea endian magic records = bytes := by
  by_cases empty : records = []
  · subst empty
    simp [Tlv.get, Codec.writeAll, writeArea]
  · have present := (writeAll_eq_nil_iff endian).not.mpr empty
    have length : ((Record.codec endian).writeAll records).length ≠ 0 :=
      List.length_eq_zero_iff.not.mpr present
    rw [Tlv.get, if_neg length, bind_eq_ok_iff, length_writeArea empty, writeArea, if_neg empty]
    simp only [structPack_eq_ok_iff, Tlv.len, pack_info_iff small]
    constructor
    · rintro ⟨header, ⟨fits, rfl⟩, same⟩
      cases same
      exact ⟨fits, rfl⟩
    · rintro ⟨fits, rfl⟩
      exact ⟨_, ⟨fits, rfl⟩, rfl⟩

/-- The header of an area is at its front. -/
theorem unpack_writeArea (present : records ≠ []) (small : magic < 65536)
    (fits : (writeArea endian magic records).length < 65536) (rest : Bytes) :
    unpack endian [.H, .H] ((writeArea endian magic records ++ rest).take tlvInfoSize) =
      some [magic, (writeArea endian magic records).length] := by
  have length : (writeArea endian magic records).length = _ := length_writeArea present
  have total := fits
  rw [length] at total
  have info := length_writeInfo endian magic (tlvInfoSize + ((Record.codec endian).writeAll records).length)
  have front : (writeArea endian magic records ++ rest).take tlvInfoSize =
      writeInfo endian magic (tlvInfoSize + ((Record.codec endian).writeAll records).length) := by
    rw [writeArea, if_neg present, List.append_assoc]
    exact List.take_left' info
  rw [front, length]
  exact unpack_info endian small total

/-- An area is read back with all its records, whatever follows it. -/
theorem readArea_writeArea (present : records ≠ []) (small : magic < 65536)
    (fits : (writeArea endian magic records).length < 65536) (rest : Bytes) :
    readArea endian magic (writeArea endian magic records ++ rest) = some (records, rest) := by
  have length : (writeArea endian magic records).length = _ := length_writeArea present
  have whole := (Record.codec endian).readAll_eq_some_iff.mpr
    (rfl : (Record.codec endian).writeAll records = _)
  have back : (writeArea endian magic records).drop tlvInfoSize = (Record.codec endian).writeAll records := by
    rw [writeArea, if_neg present]
    exact List.drop_left' (length_writeInfo _ _ _)
  rw [readArea, unpack_writeArea present small fits]
  simp only [List.take_left, List.drop_left, back, whole, Option.map_some]
  rw [if_pos ⟨trivial, by omega, by simp⟩]

/-- An area with another magic is none. -/
theorem readArea_foreign (present : records ≠ []) (small : magic < 65536)
    (fits : (writeArea endian magic records).length < 65536) (foreign : magic ≠ other) (rest : Bytes) :
    readArea endian other (writeArea endian magic records ++ rest) = none := by
  rw [readArea, unpack_writeArea present small fits]
  simp only
  rw [if_neg fun found => foreign found.1]

end Area

end Motohs.Imgtool
