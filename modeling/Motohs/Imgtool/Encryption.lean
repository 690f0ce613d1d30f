import Motohs.Imgtool.Authentic

/-! Who can read an encrypted image: what the holder of the private key gets out of the
file again. -/

namespace Motohs.Imgtool

open Lib

/-- The length of a bare point. -/
def pointLen : KeyFamily → Nat
  | .ecdsa256P1 => 65
  | _ => 32

/-- `ecies_hkdf` undone: the mac is checked before the key is decrypted. -/
def openEcies (crypto : Cryptography) (family : KeyFamily) (secret enctlv : Bytes) : Option Bytes :=
  let pubk := enctlv.take (pointLen family)
  let mac := (enctlv.drop (pointLen family)).take 32
  let cipherkey := (enctlv.drop (pointLen family)).drop 32
  let derivedKey := crypto.hkdf (crypto.exchange family secret (crypto.ofPoint family pubk))
  if crypto.hmac (derivedKey.drop 16) cipherkey = mac then some (crypto.ctr (derivedKey.take 16) cipherkey)
  else none

/-- The key of the payload, from the TLV it is kept in and the private key. -/
def openKey (crypto : Cryptography) (family : KeyFamily) (secret enctlv : Bytes) : Option Bytes :=
  match family with
  | .rsa2048 | .rsa3072 => crypto.oaepDecrypt secret enctlv
  | .ecdsa256P1 | .x25519 => openEcies crypto family secret enctlv
  | .ed25519 => none

/-- A TLV that keeps the key of the payload. -/
def KeepsKey (record : Record) : Prop :=
  ∃ kind ∈ [TlvKind.encRsa2048, .encEc256, .encX25519], record.kind = kind.value

instance : DecidablePred KeepsKey := fun record =>
  inferInstanceAs (Decidable (∃ kind ∈ [TlvKind.encRsa2048, .encEc256, .encX25519], record.kind = kind.value))

/-- The TLVs next to the hash, found the way that `verify` finds them. -/
def readRecords (native : ByteOrder) (b : Bytes) : Option (List Record) := do
  let header ← (readHeader native b).toOption
  let (tlvOff, _) ← (findArea native b (header.headerSize + header.imgSize)).toOption
  let (records, _) ← readArea native tlvInfoMagic (b.drop tlvOff)
  pure records

/-- What the device makes of an encrypted file: the payload without its header, decrypted
with the key that it finds among the TLVs. -/
def openFile (crypto : Cryptography) (native : ByteOrder) (family : KeyFamily) (secret b : Bytes) : Option Bytes := do
  let header ← (readHeader native b).toOption
  let records ← readRecords native b
  let record ← records.find? fun record => KeepsKey record
  let plainkey ← openKey crypto family secret record.payload
  pure (crypto.ctr plainkey ((b.take (header.headerSize + header.imgSize)).drop header.headerSize))

section Open

variable {crypto : Cryptography} {random : Randomness}

theorem openEcies_append {pubk mac : Bytes} (point : pubk.length = pointLen family) (size : mac.length = 32)
    (cipherkey : Bytes) : openEcies crypto family secret (pubk ++ mac ++ cipherkey) =
      let derivedKey := crypto.hkdf (crypto.exchange family secret (crypto.ofPoint family pubk))
      if crypto.hmac (derivedKey.drop 16) cipherkey = mac then
        some (crypto.ctr (derivedKey.take 16) cipherkey)
      else none := by
  rw [openEcies, List.append_assoc, List.take_left' point, List.drop_left' point, List.take_left' size,
    List.drop_left' size]

/-- Both ends come to the same shared secret, so the mac is right and the key comes out. -/
theorem openEcies_eciesHkdf {enckey : Key} (exchanges : enckey.family = .ecdsa256P1 ∨ enckey.family = .x25519)
    (owner : enckey.getPublicBytes crypto = crypto.publicKey enckey.family secret) :
    openEcies crypto enckey.family secret (Image.eciesHkdf crypto enckey random) = some random.plainkey := by
  have point : (crypto.point enckey.family (crypto.publicKey enckey.family random.newpk)).length =
      pointLen enckey.family := by
    rcases exchanges with same | same <;> rw [same]
    · exact (crypto.length_point random.newpk).1
    · exact (crypto.length_point random.newpk).2
  rw [Image.eciesHkdf, openEcies_append point (crypto.length_hmac _ _), crypto.ofPoint_point, owner,
    crypto.exchange_comm]
  simp only [if_true, crypto.ctr_ctr]

theorem openKey_encTlv {enckey : Key} (found : Image.encTlv crypto enckey random = some (kind, enctlv))
    (owner : enckey.getPublicBytes crypto = crypto.publicKey enckey.family secret) :
    openKey crypto enckey.family secret enctlv = some random.plainkey := by
  unfold Image.encTlv at found
  unfold openKey
  cases same : enckey.family with
  | rsa2048 | rsa3072 =>
    rw [same] at found owner
    cases found
    rw [owner]
    exact crypto.oaepDecrypt_encrypt _ secret random.plainkey (by simp)
  | ecdsa256P1 | x25519 =>
    have opened : openEcies crypto enckey.family secret (Image.eciesHkdf crypto enckey random) = _ :=
      openEcies_eciesHkdf (by simp [same]) owner
    rw [same] at found opened
    cases found
    exact opened
  | ed25519 =>
    rw [same] at found
    cases found

/-- Only the Ed25519 classes are none of those that the key can be kept for. -/
theorem encTlv_eq_none_iff {enckey : Key} :
    Image.encTlv crypto enckey random = none ↔ enckey.family = .ed25519 := by
  unfold Image.encTlv
  cases enckey.family <;> simp

theorem encTlv_keepsKey {enckey : Key} (found : Image.encTlv crypto enckey random = some (kind, enctlv))
    (kept : record.Is kind enctlv) : KeepsKey record := by
  refine ⟨kind, ?_, kept.1⟩
  unfold Image.encTlv at found
  cases family : enckey.family <;> simp [family] at found <;> simp [← found.1]

theorem Signs.not_keepsKey (signs : Signs crypto publicKeyFormat payload key records) :
    ∀ record ∈ records, ¬ KeepsKey record := by
  have other (kind : TlvKind) (others : kind ∉ [TlvKind.encRsa2048, .encEc256, .encX25519]) {record : Record}
      (made : record.kind = kind.value) : ¬ KeepsKey record := by
    rintro ⟨kept, member, same⟩
    exact others (TlvKind.value_injective (same.symm.trans made) ▸ member)
  cases signs with
  | unsigned hash => exact List.forall_mem_singleton.mpr (other .sha256 (by decide) hash.1)
  | @signed kind signer _ _ _ _ hash owner _ tagged made =>
    have pub : ¬ KeepsKey _ := other _ (by cases publicKeyFormat <;> simp [Image.pubTlv]) owner.1
    have signature : ¬ KeepsKey _ := other kind
      (by cases family : signer.family <;> simp [Key.sigTlv, family] at tagged <;> simp [← tagged]) made.1
    simp only [List.forall_mem_cons]
    exact ⟨other .sha256 (by decide) hash.1, pub, signature, by simp⟩

end Open

section Create

variable {crypto : Cryptography} {cbor : Cbor} {key : Option Key} {args : CreateArgs}
variable {random : Randomness} {image next : Image}

/-- The second area of a created image is read back, whatever follows. -/
theorem Created.readRecords {enckey : Option Key}
    (created : Created crypto cbor key enckey args random image next layout)
    (sized : imageHeaderSize ≤ image.headerSize) (trailing : Bytes) :
    readRecords image.endian (next.payload ++ trailing) = some (layout.signs ++ layout.keeps) := by
  have back : (next.payload ++ trailing).drop (Created.stored crypto random enckey image layout).length =
      layout.area image.endian ++ trailing := by
    rw [created.result, Created.stored]
    simp only [List.append_assoc, List.length_append, ← List.drop_drop, List.drop_left]
  have read := created.readHeader_file sized trailing
  have area := created.findArea_file sized trailing
  have records : readArea image.endian tlvInfoMagic (layout.area image.endian ++ trailing) = _ :=
    readArea_writeArea created.signs_ne_nil (by decide) created.areaFits trailing
  rw [Imgtool.readRecords, read]
  simp only [Except.toOption, bind, Option.bind, area, back, records]
  rfl

theorem Created.plain_drop {enckey : Option Key}
    (created : Created crypto cbor key enckey args random image next layout)
    (sized : imageHeaderSize ≤ image.headerSize) :
    layout.plain.drop image.headerSize = (image.prepared enckey).drop image.headerSize := by
  have header := length_header created.header
  have all : layout.header.drop image.headerSize = [] := List.drop_of_length_le (by omega)
  rw [Layout.plain, List.drop_append, all, List.nil_append, created.body, List.drop_drop, header,
    Nat.add_sub_cancel' sized]

/-- What is stored behind the header is decrypted with the key of the payload. -/
theorem ctr_storedPayload {enckey : Key} {payload : Bytes} (long : headerSize ≤ payload.length) :
    crypto.ctr random.plainkey ((storedPayload crypto random (some enckey) headerSize payload).drop headerSize) =
      payload.drop headerSize := by
  have front : (payload.take headerSize).length = headerSize := by simp [long]
  rw [storedPayload, List.drop_left' front, crypto.ctr_ctr]

/-- Whoever has the private key gets the payload back that hash and signature were made
over, whatever follows the image in the file. -/
theorem openFile_create {enckey : Key} (made : image.create crypto cbor key (some enckey) args random = .ok next)
    (sized : imageHeaderSize ≤ image.headerSize) (keeps : enckey.family ≠ .ed25519)
    (owner : enckey.getPublicBytes crypto = crypto.publicKey enckey.family secret) (trailing : Bytes) :
    openFile crypto image.endian enckey.family secret (next.payload ++ trailing) =
      some ((image.prepared (some enckey)).drop image.headerSize) := by
  obtain ⟨layout, created⟩ := create_eq_ok_iff.mp made
  have read := created.readHeader_file sized trailing
  have kept := created.keeps
  generalize same : layout.keeps = records at kept
  cases kept with
  | lost unknown => exact absurd (encTlv_eq_none_iff.mp unknown) keeps
  | @kept _ _ _ record found kept =>
    have none : layout.signs.find? (fun record => KeepsKey record) = none :=
      List.find?_eq_none.mpr fun record member => by simpa using created.signs.not_keepsKey record member
    have tlv : (layout.signs ++ layout.keeps).find? (fun record => KeepsKey record) = some record := by
      rw [List.find?_append, none, same]
      simp [encTlv_keepsKey found kept]
    have stored : (next.payload ++ trailing).take
        (image.headerSize + ((image.prepared (some enckey)).length - image.headerSize)) =
          storedPayload crypto random (some enckey) image.headerSize layout.plain := by
      rw [created.size_stored sized, created.result]
      simp only [List.append_assoc, List.take_left]
    have long : image.headerSize ≤ layout.plain.length := by
      rw [created.length_plain sized]
      exact created.headerSize_le
    have opened : openKey crypto enckey.family secret record.payload = some random.plainkey := by
      rw [kept.2]
      exact openKey_encTlv found owner
    rw [openFile, read]
    simp only [Except.toOption, bind, Option.bind, created.readRecords sized trailing, tlv, opened, stored]
    rw [ctr_storedPayload long, created.plain_drop sized]
    rfl

/-- Among the TLVs there is one that keeps the key, unless the key class is none of those
that it can be kept for. -/
theorem create_keepsKey_iff {enckey : Key}
    (made : image.create crypto cbor key (some enckey) args random = .ok next)
    (sized : imageHeaderSize ≤ image.headerSize) (trailing : Bytes) :
    ∃ records, readRecords image.endian (next.payload ++ trailing) = some records ∧
      ((∃ record ∈ records, KeepsKey record) ↔ enckey.family ≠ .ed25519) := by
  obtain ⟨layout, created⟩ := create_eq_ok_iff.mp made
  refine ⟨layout.signs ++ layout.keeps, created.readRecords sized trailing, ?_⟩
  have kept := created.keeps
  generalize layout.keeps = records at kept
  cases kept with
  | kept found kept =>
    have family := encTlv_eq_none_iff.not.mp (by rw [found]; simp)
    exact iff_of_true ⟨_, by simp, encTlv_keepsKey found kept⟩ family
  | lost unknown =>
    rw [List.append_nil]
    refine iff_of_false ?_ (not_not.mpr (encTlv_eq_none_iff.mp unknown))
    rintro ⟨record, member, keeps⟩
    exact created.signs.not_keepsKey record member keeps

end Create

end Motohs.Imgtool
