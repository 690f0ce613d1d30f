import Motohs.Imgtool.Image

/-! What `create` returns, part by part: the header, the payload, the protected area and
the area with the hash, the signature and the key. -/

namespace Motohs.Imgtool

open Lib

def Record.Is (record : Record) (kind : TlvKind) (payload : Bytes) : Prop :=
  record.kind = kind.value ∧ record.payload = payload

def Record.pair (record : Record) : Int × Bytes := (record.kind, record.payload)

/-- The records that a hash over the payload comes with, and a signature if there is a
key. -/
inductive Signs (crypto : Cryptography) (publicKeyFormat : PublicKeyFormat) (payload : Bytes) :
    Option Key → List Record → Prop where
  | unsigned (hash : sha.Is .sha256 (crypto.sha256 payload)) :
      Signs crypto publicKeyFormat payload none [sha]
  | signed (hash : sha.Is .sha256 (crypto.sha256 payload))
      (owner : pub.Is (Image.pubTlv crypto key publicKeyFormat).1 (Image.pubTlv crypto key publicKeyFormat).2)
      (signature : key.signature crypto payload (crypto.sha256 payload) = .ok sig)
      (tagged : key.sigTlv = some kind) (made : signed.Is kind sig) :
      Signs crypto publicKeyFormat payload (some key) [sha, pub, signed]

/-- The records that keep the key of the payload. -/
inductive Keeps (crypto : Cryptography) (random : Randomness) : Option Key → List Record → Prop where
  | plain : Keeps crypto random none []
  | kept (found : Image.encTlv crypto enckey random = some (kind, enctlv)) (kept : record.Is kind enctlv) :
      Keeps crypto random (some enckey) [record]
  | lost (unknown : Image.encTlv crypto enckey random = none) : Keeps crypto random (some enckey) []

structure Layout where
  bootRecord : Option Bytes
  header : Bytes
  /-- What follows the header in the hash. -/
  body : Bytes
  prot : List Record
  signs : List Record
  keeps : List Record

namespace Layout

def protArea (endian : ByteOrder) (layout : Layout) : Bytes :=
  writeArea endian tlvProtInfoMagic layout.prot

def area (endian : ByteOrder) (layout : Layout) : Bytes :=
  writeArea endian tlvInfoMagic (layout.signs ++ layout.keeps)

/-- The image without TLVs. -/
def plain (layout : Layout) : Bytes := layout.header ++ layout.body

/-- What hash and signature are made over. -/
def hashed (endian : ByteOrder) (layout : Layout) : Bytes := layout.plain ++ layout.protArea endian

end Layout

theorem Tlv.add_writeAll {endian : ByteOrder} {magic : Nat} {records : List Record} :
    Tlv.add kind payload ⟨endian, magic, (Record.codec endian).writeAll records⟩ = .ok next ↔
      ∃ record : Record, record.kind = kind ∧ record.payload = payload ∧
        next = ⟨endian, magic, (Record.codec endian).writeAll (records ++ [record])⟩ := by
  rw [Tlv.add_eq_ok_iff]
  simp [Codec.writeAll, Record.codec]

theorem Tlv.add_kind {endian : ByteOrder} {magic : Nat} {records : List Record} {kind : TlvKind} :
    Tlv.add kind.value payload ⟨endian, magic, (Record.codec endian).writeAll records⟩ = .ok next ↔
      ∃ record : Record, record.Is kind payload ∧
        next = ⟨endian, magic, (Record.codec endian).writeAll (records ++ [record])⟩ := by
  rw [Tlv.add_writeAll]
  simp [Record.Is, and_assoc]

theorem signTlvs_eq_ok_iff {endian : ByteOrder} {magic : Nat} :
    Image.signTlvs crypto key publicKeyFormat payload (.new endian magic) = .ok next ↔
      ∃ records, Signs crypto publicKeyFormat payload key records ∧
        next = ⟨endian, magic, (Record.codec endian).writeAll records⟩ := by
  have new : Tlv.new endian magic = ⟨endian, magic, (Record.codec endian).writeAll []⟩ := rfl
  unfold Image.signTlvs
  simp only [new, bind_eq_ok_iff, Tlv.add_kind, List.nil_append]
  cases key with
  | none =>
    constructor
    · rintro ⟨_, ⟨sha, hash, rfl⟩, done⟩
      cases done
      exact ⟨[sha], .unsigned hash, rfl⟩
    · rintro ⟨records, signs, rfl⟩
      cases signs with
      | unsigned hash => exact ⟨_, ⟨_, hash, rfl⟩, rfl⟩
  | some key =>
    simp only [bind_eq_ok_iff]
    constructor
    · rintro ⟨_, ⟨sha, hash, rfl⟩, _, added, sig, signature, done⟩
      obtain ⟨pub, owner, rfl⟩ := Tlv.add_kind.mp added
      cases tagged : key.sigTlv with
      | none => simp [tagged] at done
      | some kind =>
        simp only [tagged, Tlv.add_kind] at done
        obtain ⟨signed, made, rfl⟩ := done
        exact ⟨[sha, pub, signed], .signed hash owner signature tagged made, by simp⟩
    · rintro ⟨records, signs, rfl⟩
      cases signs with
      | signed hash owner signature tagged made =>
        refine ⟨_, ⟨_, hash, rfl⟩, _, Tlv.add_kind.mpr ⟨_, owner, rfl⟩, _, signature, ?_⟩
        simp only [tagged, Tlv.add_kind]
        exact ⟨_, made, rfl⟩

/-- What is stored of a payload when it is encrypted. -/
def storedPayload (crypto : Cryptography) (random : Randomness) (enckey : Option Key) (headerSize : Nat)
    (payload : Bytes) : Bytes :=
  match enckey with
  | some _ => payload.take headerSize ++ crypto.ctr random.plainkey (payload.drop headerSize)
  | none => payload

/-- The length of the key as it is stored, if it is. -/
def keptLen (before : Nat) : List Record → Nat
  | [] => before
  | record :: _ => record.payload.length

theorem encryptPayload_eq_ok_iff {endian : ByteOrder} {magic : Nat} {records : List Record}
    {image : Image} : image.encryptPayload crypto enckey random
        ⟨endian, magic, (Record.codec endian).writeAll records⟩ = .ok (next, tlv) ↔
      ∃ keeps, Keeps crypto random enckey keeps ∧
        next = { image with
          enctlvLen := keptLen image.enctlvLen keeps
          payload := storedPayload crypto random enckey image.headerSize image.payload } ∧
        tlv = ⟨endian, magic, (Record.codec endian).writeAll (records ++ keeps)⟩ := by
  unfold Image.encryptPayload
  cases enckey with
  | none =>
    constructor
    · intro done
      cases done
      exact ⟨[], .plain, rfl, by rw [List.append_nil]⟩
    · rintro ⟨keeps, kept, rfl, rfl⟩
      cases kept
      rw [List.append_nil]
      rfl
  | some enckey =>
    simp only [Image.encrypt]
    cases found : Image.encTlv crypto enckey random with
    | none =>
      constructor
      · intro done
        cases done
        exact ⟨[], .lost found, rfl, by rw [List.append_nil]⟩
      · rintro ⟨keeps, kept, rfl, rfl⟩
        cases kept with
        | kept other _ =>
          rw [found] at other
          cases other
        | lost _ =>
          rw [List.append_nil]
          rfl
    | some pair =>
      obtain ⟨kind, enctlv⟩ := pair
      simp only [bind_eq_ok_iff, Tlv.add_kind]
      constructor
      · rintro ⟨_, ⟨record, stored, rfl⟩, done⟩
        cases done
        exact ⟨[record], .kept found stored, by rw [keptLen, stored.2]; rfl, rfl⟩
      · rintro ⟨keeps, kept, rfl, rfl⟩
        cases kept with
        | @kept _ _ _ record other stored =>
          rw [found] at other
          cases other
          refine ⟨_, ⟨record, stored, rfl⟩, ?_⟩
          rw [keptLen, stored.2]
          rfl
        | lost other =>
          rw [found] at other
          cases other

/-- How many bytes the TLVs take up in an area. -/
def tlvsSize (tlvs : List (Int × Bytes)) : Nat := (tlvs.map fun tlv => tlvSize + tlv.2.length).sum

theorem tlvsSize_append (front back : List (Int × Bytes)) :
    tlvsSize (front ++ back) = tlvsSize front + tlvsSize back := by
  simp [tlvsSize]

theorem tlvsSize_const {payloads : List Bytes} (length : ∀ payload ∈ payloads, payload.length = size)
    (kind : Int) : tlvsSize (payloads.map fun payload => (kind, payload)) = payloads.length * (tlvSize + size) := by
  induction payloads with
  | nil => simp [tlvsSize]
  | cons payload rest ih =>
    have later := ih fun other member => length other (List.mem_cons_of_mem _ member)
    simp only [tlvsSize, List.map_cons, List.sum_cons, List.length_cons] at later ⊢
    rw [later, length payload List.mem_cons_self, Nat.add_mul, Nat.one_mul, Nat.add_comm]

theorem tlvsSize_pair (endian : ByteOrder) (records : List Record) :
    tlvsSize (records.map Record.pair) = ((Record.codec endian).writeAll records).length := by
  induction records with
  | nil => rfl
  | cons record rest ih =>
    simp only [tlvsSize, List.map_cons, List.sum_cons] at ih ⊢
    rw [Codec.writeAll_cons, List.length_append, ← ih]
    exact congrArg (· + _) (record.length_write endian).symm

theorem tlvsSize_eq_zero_iff {tlvs : List (Int × Bytes)} : tlvsSize tlvs = 0 ↔ tlvs = [] := by
  cases tlvs with
  | nil => simp [tlvsSize]
  | cons tlv rest => simp [tlvsSize, tlvSize]

theorem length_of_pack {Item : Type} {values : Item → List Int} {format : List Code} {items : List Item}
    {payloads : List Bytes} (each : List.Forall₂
      (fun item payload => structPack endian format (values item) = .ok payload) items payloads) :
    payloads.length = items.length ∧ ∀ payload ∈ payloads, payload.length = calcsize format := by
  refine ⟨each.length_eq.symm, ?_⟩
  induction each with
  | nil => simp
  | cons packed _ ih =>
    intro payload member
    rcases List.mem_cons.mp member with rfl | later
    · exact length_pack (structPack_eq_ok_iff.mp packed)
    · exact ih payload later

/-- What is reckoned for the protected TLVs is what they take up. -/
theorem protectedRecordsSize_eq {image : Image} (made : image.protectedTlvs record args = .ok tlvs) :
    image.protectedRecordsSize record args = tlvsSize tlvs := by
  simp only [Image.protectedTlvs, bind_eq_ok_iff, mapM_eq_ok_iff] at made
  obtain ⟨counters, counterEach, dependencies, dependencyEach, same⟩ := made
  obtain ⟨counterCount, counterLength⟩ := length_of_pack counterEach
  obtain ⟨dependencyCount, dependencyLength⟩ := length_of_pack dependencyEach
  have counterSize : tlvsSize (counters.map fun payload => ((TlvKind.secCnt.value : Int), payload)) =
      if image.securityCounter.isSome then tlvSize + 4 else 0 := by
    rw [tlvsSize_const counterLength, counterCount]
    cases image.securityCounter <;> rfl
  have recordSize : tlvsSize (record.toList.map fun payload => ((TlvKind.bootRecord.value : Int), payload)) =
      record.elim 0 fun record => tlvSize + record.length := by
    cases record <;> simp [tlvsSize]
  have dependencySize :
      tlvsSize (dependencies.map fun payload => ((TlvKind.dependency.value : Int), payload)) =
        args.dependencies.elim 0 fun dependencies => dependencies.images.length * 16 := by
    rw [tlvsSize_const dependencyLength, dependencyCount]
    cases args.dependencies with
    | none => rfl
    | some dependencies =>
      have paired := dependencies.paired
      simp [paired, tlvSize, calcsize, Code.size]
  cases same
  rw [tlvsSize_append, tlvsSize_append, tlvsSize_append, counterSize, recordSize, dependencySize]
  rfl

/-- Nothing to protect, nothing added. -/
theorem protectedTlvs_of_size_zero {image : Image} (nothing : image.protectedRecordsSize record args = 0) :
    image.protectedTlvs record args = .ok [] := by
  unfold Image.protectedRecordsSize at nothing
  have counter : image.securityCounter = none := by
    cases same : image.securityCounter with
    | none => rfl
    | some counter => simp [same, tlvSize] at nothing
  have noRecord : record = none := by
    cases record with
    | none => rfl
    | some record => simp [tlvSize] at nothing
  have custom : args.customTlvs = [] := by
    apply tlvsSize_eq_zero_iff.mp
    unfold tlvsSize
    omega
  have numbered : (args.dependencies.elim [] fun dependencies =>
      dependencies.images.zip dependencies.versions) = [] := by
    cases same : args.dependencies with
    | none => rfl
    | some dependencies =>
      simp only [same, Option.elim_some] at nothing
      have empty : dependencies.images = [] := List.length_eq_zero_iff.mp (by omega)
      simp [empty]
  simp only [Image.protectedTlvs, counter, noRecord, custom, numbered]
  rfl

theorem addAll_new_iff {endian : ByteOrder} {magic : Nat} :
    (Tlv.new endian magic).addAll tlvs = .ok tlv ↔ ∃ records : List Record,
      records.map Record.pair = tlvs ∧ tlv = ⟨endian, magic, (Record.codec endian).writeAll records⟩ :=
  Tlv.addAll_eq_ok_iff

/-- The protected area has the records asked for and the size that the header announces. -/
theorem protectedArea_eq_ok_iff {image : Image} :
    image.protectedArea (image.protectedTlvSize record args) record args = .ok area ↔
      ∃ records : List Record, image.protectedTlvs record args = .ok (records.map Record.pair) ∧
        (writeArea image.endian tlvProtInfoMagic records).length < 65536 ∧
        writeArea image.endian tlvProtInfoMagic records = area := by
  have tlvs : (if image.protectedTlvSize record args ≠ 0 then image.protectedTlvs record args
      else .ok []) = image.protectedTlvs record args := by
    by_cases nothing : image.protectedRecordsSize record args = 0
    · rw [protectedTlvs_of_size_zero nothing]
      simp [Image.protectedTlvSize, nothing]
    · rw [if_pos]
      simp [Image.protectedTlvSize, nothing, tlvInfoSize]
  rw [Image.protectedArea, tlvs]
  simp only [bind_eq_ok_iff, addAll_new_iff]
  constructor
  · rintro ⟨_, made, _, ⟨records, rfl, rfl⟩, got⟩
    exact ⟨records, made, (get_eq_ok_iff (by decide)).mp got⟩
  · rintro ⟨records, made, got⟩
    exact ⟨_, made, _, ⟨records, rfl, rfl⟩, (get_eq_ok_iff (by decide)).mpr got⟩

theorem protectedTlvSize_eq {image : Image} {records : List Record}
    (made : image.protectedTlvs record args = .ok (records.map Record.pair)) :
    image.protectedTlvSize record args = (writeArea image.endian tlvProtInfoMagic records).length := by
  have size := protectedRecordsSize_eq made
  rw [tlvsSize_pair image.endian] at size
  unfold Image.protectedTlvSize
  simp only [size]
  by_cases empty : records = []
  · subst empty
    rfl
  · have present := (writeAll_eq_nil_iff image.endian).not.mpr empty
    rw [if_pos (List.length_eq_zero_iff.not.mpr present), length_writeArea empty, Nat.add_comm]

/-- What `create` makes of an image, and the parts of it. -/
structure Created (crypto : Cryptography) (cbor : Cbor) (key enckey : Option Key) (args : CreateArgs)
    (random : Randomness) (image next : Image) (layout : Layout) : Prop where
  bootRecord : image.bootRecord cbor args (Image.signerId crypto key) = .ok layout.bootRecord
  header : pack image.endian headerFormat
    (({ image with payload := image.prepared enckey } : Image).headerValues enckey.isSome
      (layout.protArea image.endian).length) = some layout.header
  body : layout.body = (image.prepared enckey).drop imageHeaderSize
  prot : image.protectedTlvs layout.bootRecord args = .ok (layout.prot.map Record.pair)
  signs : Signs crypto args.publicKeyFormat (layout.hashed image.endian) key layout.signs
  keeps : Keeps crypto random enckey layout.keeps
  protFits : (layout.protArea image.endian).length < 65536
  areaFits : (layout.area image.endian).length < 65536
  room : next.checkTrailer = .ok ()
  result : next = { image with
    enckey
    enctlvLen := keptLen image.enctlvLen layout.keeps
    payload := storedPayload crypto random enckey image.headerSize layout.plain ++
      layout.protArea image.endian ++ layout.area image.endian }

theorem length_header {values : List Int} (packed : pack endian headerFormat values = some header) :
    header.length = imageHeaderSize := length_pack packed

theorem addHeader_eq_ok_iff {image next : Image} : image.addHeader encrypted size = .ok next ↔
    ∃ header, pack image.endian headerFormat (image.headerValues encrypted size) = some header ∧
      next = { image with payload := header ++ image.payload.drop imageHeaderSize } := by
  rw [Image.addHeader, bind_eq_ok_iff]
  constructor
  · rintro ⟨header, packed, same⟩
    have packed := structPack_eq_ok_iff.mp packed
    cases same
    exact ⟨header, packed, congrArg (fun size => { image with payload := header ++ image.payload.drop size })
      (length_header packed)⟩
  · rintro ⟨header, packed, rfl⟩
    refine ⟨header, structPack_eq_ok_iff.mpr packed, ?_⟩
    rw [length_header packed]
    rfl

theorem create_eq_ok_iff {image next : Image} :
    image.create crypto cbor key enckey args random = .ok next ↔
      ∃ layout, Created crypto cbor key enckey args random image next layout := by
  unfold Image.create
  simp only [bind_eq_ok_iff]
  constructor
  · rintro ⟨record, bootRecord, _, added, _, protects, tlv, signed, ⟨_, _⟩, encrypted, _, got, _, room, done⟩
    obtain ⟨header, packed, rfl⟩ := addHeader_eq_ok_iff.mp added
    obtain ⟨prot, made, protFits, rfl⟩ := protectedArea_eq_ok_iff.mp protects
    obtain ⟨signs, signsAre, rfl⟩ := signTlvs_eq_ok_iff.mp signed
    obtain ⟨keeps, keepsAre, rfl, rfl⟩ := encryptPayload_eq_ok_iff.mp encrypted
    obtain ⟨areaFits, rfl⟩ := (get_eq_ok_iff (by decide)).mp got
    cases done
    change image.protectedTlvs record args = _ at made
    change pack image.endian headerFormat (Image.headerValues _ (image.protectedTlvSize record args) _) = _ at packed
    rw [protectedTlvSize_eq made] at packed
    exact ⟨⟨record, header, _, prot, signs, keeps⟩,
      bootRecord, packed, rfl, made, signsAre, keepsAre, protFits, areaFits, room, rfl⟩
  · rintro ⟨layout, created⟩
    obtain ⟨bootRecord, packed, body, made, signsAre, keepsAre, protFits, areaFits, room, rfl⟩ := created
    obtain ⟨record, header, _, prot, signs, keeps⟩ := layout
    subst body
    change pack image.endian headerFormat
      (Image.headerValues _ (writeArea image.endian tlvProtInfoMagic prot).length _) = _ at packed
    rw [← protectedTlvSize_eq made] at packed
    exact ⟨record, bootRecord, _, addHeader_eq_ok_iff.mpr ⟨header, packed, rfl⟩,
      _, protectedArea_eq_ok_iff.mpr ⟨prot, made, protFits, rfl⟩,
      _, signTlvs_eq_ok_iff.mpr ⟨signs, signsAre, rfl⟩,
      ⟨_, _⟩, encryptPayload_eq_ok_iff.mpr ⟨keeps, keepsAre, rfl, rfl⟩,
      _, (get_eq_ok_iff (by decide)).mpr ⟨areaFits, rfl⟩, _, room, rfl⟩

end Motohs.Imgtool
