import Motohs.Imgtool.RoundTrip

/-! When the images that `create` makes are taken for authentic. -/

namespace Motohs.Imgtool

open Lib

section Sample

/-- The secrets of the examples: the key that signs, the key that decrypts, and what is
drawn at random. -/
def sampleSigner : Key := ⟨.ed25519, .privateKey (List.replicate 32 0x11), false⟩

def sampleEncSecret : Bytes := List.replicate 32 0x22

def sampleRandomness : Randomness := ⟨List.replicate 16 0x44, rfl, List.replicate 32 0x33⟩

def sampleNumber (size number : Nat) : Bytes := ByteOrder.big.write size number

/-- The public keys without what names their family. -/
def samplePoint (family : KeyFamily) (secret : Bytes) : Bytes :=
  sampleNumber (if family = .ecdsa256P1 then 65 else 32) <|
    if family = .ed25519 then 0xd04ab232742bb4ab3a1368bd4615e4e6d0224ab71a016baf8520a332c9778737
    else if secret = sampleEncSecret then 0x0faa684ed28867b97f4a6a2dee5df8ce974e76b7018e3f22a1c4cf2678570f20
    else 0x7b0d47d93427f8311160781c7c733fd89f88970aef490d8aa0ee19a4cb8a1b14

def samplePrefix : KeyFamily → Bytes
  | .ed25519 => sampleNumber 12 0x302a300506032b6570032100
  | .x25519 => sampleNumber 12 0x302a300506032b656e032100
  | .ecdsa256P1 => List.replicate 26 0
  | _ => []

/-- What the functions of the packages give on the inputs of the examples. -/
def sampleCryptography : Cryptography where
  sha256 data := sampleNumber 32 <|
    if data.length = 166 then 0xc9939d2a63dd28bd7bdd6292f329daed1ffac91fe964600b6836ab7859c1cb18
    else if data.drop 36 = sampleNumber 12 0x08690c005000040000000a01 then
      0xbdcd11d31b693939f02d7ea86cc8d8bfdcca084c9693a25ab6b081cf4373db1f
    else if data.length = 44 then 0x503d8ee46d581c649966569ae095e27041de83322e8e0480e5539e00d2d5d874
    else if data.length = 36 then 0x1bb83abfc64015b6b6604515ad4b14d731e513c54ccf29849c445f7c71efe89b
    else if data.drop 36 = List.replicate 12 0 then
      0xf1bba4a6b64807656267203c2072cf60e8a6fc4b73a6a47f412ef75a5bdd58f1
    else 0x7e05032a28ffc97496e6c99ebf682dbac5f98d42603714d3306ffdf494064900
  length_sha256 _ := ByteOrder.length_write _ _ _
  publicKey family secret := samplePrefix family ++ samplePoint family secret
  sign family _ _ := match family with
    | .ed25519 => sampleNumber 64 0xe45322600d7741a94872a6638a3d4fe93948d2076386bcd5a00ef828608f929f19b55f23efccd6f0b5aa6b214bf8299f94825b637cdf48ca3be47575e15ef50f
    | _ => [0x30, 0]
  accepts family _ sig _ := match family with
    | .ed25519 => sig = sampleNumber 64 0xe45322600d7741a94872a6638a3d4fe93948d2076386bcd5a00ef828608f929f19b55f23efccd6f0b5aa6b214bf8299f94825b637cdf48ca3be47575e15ef50f
    | _ => sig = [0x30, 0]
  accepts_sign family _ _ := by cases family <;> simp
  sign_ecdsa _ _ := ⟨[], by simp⟩
  keyStream key index :=
    (if key = sampleRandomness.plainkey then sampleNumber 16 0xa37c22a23ac6fc3b71f047040daf2010
      else sampleNumber 16 0x3df171e7edbe38b9d8791b2779709889).getD index 0
  oaepEncrypt _ message := message
  oaepDecrypt _ := some
  oaepDecrypt_encrypt _ _ _ _ := rfl
  exchange family one other :=
    if other = samplePrefix family ++ samplePoint family one then []
    else sampleNumber 32 0x1fdc192faa0212a9aae7bb4f41b580227fd5ad3e5d777faae230dfe973f3e805
  exchange_comm family one other := by simp only [eq_comm]
  point family key := key.drop (samplePrefix family).length
  ofPoint family point := samplePrefix family ++ point
  ofPoint_point family secret := by simp
  length_point _ := by simp [samplePoint, sampleNumber, ByteOrder.length_write]
  hkdf _ := sampleNumber 48 0x29c5c6e6c59a011a5e9d60b964e4c1de130dafa4b71ecc377a9cd32b2478aa3a54c891d7010f426130dbee1c1326ec53
  hmac _ _ := sampleNumber 32 0xedbc6e1ba7b641fe1f6f611d1016acae6edfbe2cb48a3099f1c82b8fb4b8dfce
  length_hmac _ _ := ByteOrder.length_write _ _ _

def sampleImage : Image where
  version := ⟨1, 2, 3, 4⟩
  headerSize := 32
  padHeader := true
  pad := false
  confirm := false
  align := 4
  slotSize := 4096
  maxSectors := none
  overwriteOnly := false
  endian := .little
  baseAddr := none
  loadAddr := 0
  romFixed := none
  erasedVal := 0xff
  payload := List.replicate 32 0xff ++ [0x00, 0xbf, 0xfe, 0xe7]
  enckey := none
  saveEnctlv := false
  enctlvLen := 0
  securityCounter := none

def sampleArgs : CreateArgs := ⟨.hash, none, none, []⟩

/-- Type and length of an item. -/
def cborHead (major length : Nat) : Bytes :=
  if length < 24 then sampleNumber 1 (32 * major + length)
  else if length < 256 then sampleNumber 2 (256 * (32 * major + 24) + length)
  else sampleNumber 3 (65536 * (32 * major + 25) + length)

def cborValue : CborValue → Bytes
  | .text chars => let data := chars.flatMap String.utf8EncodeChar; cborHead 3 data.length ++ data
  | .bytes data => cborHead 2 data.length ++ data

def cborItem (item : Nat × CborValue) : Bytes := cborHead 0 item.1 ++ cborValue item.2

def sampleCbor : Cbor where
  dumps items := cborHead 5 items.length ++ items.flatMap cborItem
  dumps_bytes items key length := by
    refine ⟨cborHead 5 (items.length + 1) ++ items.flatMap cborItem ++ cborHead 0 key ++ cborHead 2 length, ?_⟩
    intro data same
    simp [cborItem, cborValue, same]

theorem exists_of_isOk {outcome : Except Raised Result} (done : outcome.isOk = true) :
    ∃ next, outcome = .ok next := by
  cases outcome with
  | error _ => cases done
  | ok next => exact ⟨next, rfl⟩

def sampleEnckey : Key := ⟨.x25519, .privateKey sampleEncSecret, false⟩

def sampleSigned : Except Raised Image :=
  sampleImage.create sampleCryptography sampleCbor (some sampleSigner) none sampleArgs sampleRandomness

theorem sampleSigned_ok : ∃ next, sampleSigned = .ok next := exists_of_isOk (by decide +kernel)

end Sample

section Create

variable {crypto : Cryptography} {cbor : Cbor} {key : Option Key} {args : CreateArgs}
variable {random : Randomness} {image next : Image}

/-- A key of another kind than the one that has signed, if any has, finds no signature. -/
theorem verify_create_foreign {other : Key}
    (made : image.create crypto cbor key none args random = .ok next)
    (sized : imageHeaderSize ≤ image.headerSize) (tagged : other.sigTlv = some kind)
    (foreign : ∀ signer, key = some signer → signer.sigTlv ≠ some kind) (trailing : Bytes) :
    verify crypto image.endian (some other) (next.payload ++ trailing) = .ok .invalidSignature := by
  obtain ⟨layout, created⟩ := create_eq_ok_iff.mp made
  have keeps := created.keeps
  generalize kept : layout.keeps = records at keeps
  cases keeps
  rw [created.verify sized, kept, List.append_nil]
  exact judgeAll_foreign created.signs tagged foreign

theorem verify_create_signed_foreign : ∃ next, sampleSigned = .ok next ∧
    verify sampleCryptography .little (some ⟨.rsa2048, .publicKey [], false⟩) (next.payload ++ []) =
      .ok .invalidSignature := by
  obtain ⟨next, made⟩ := sampleSigned_ok
  exact ⟨next, made, verify_create_foreign made (by decide) rfl (by simp [sampleSigner, Key.sigTlv]) []⟩

theorem readHeader_of_length (native : ByteOrder) {b : Bytes} (long : 28 ≤ b.length) :
    ∃ header, readHeader native b = .ok header ∧ header.magic = native.read (b.take 4) := by
  have sizes : structUnpack native [.I, .I, .H, .H, .I] (b.take 16) = .ok _ :=
    structUnpack_eq_ok_iff.mpr (unpack_eq_some_iff.mpr ⟨by simp [calcsize, Code.size]; omega, rfl⟩)
  have version : structUnpack native [.B, .B, .H, .I] ((b.drop 20).take 8) = .ok _ :=
    structUnpack_eq_ok_iff.mpr (unpack_eq_some_iff.mpr ⟨by simp [calcsize, Code.size]; omega, rfl⟩)
  have front : (b.take 16).take 4 = b.take 4 := by
    rw [List.take_take]
    rfl
  rw [readHeader, sizes, version]
  refine ⟨_, rfl, ?_⟩
  rw [← front]

/-- Read in the other byte order the magic number is another one. -/
theorem imageMagic_other_order {native endian : ByteOrder} (other : endian ≠ native) :
    native.read (endian.write 4 imageMagic) ≠ imageMagic := by
  cases native <;> cases endian <;> first | exact absurd rfl other | decide

/-- On a host of the other byte order than the image no image verifies. -/
theorem verify_create_other_order {enckey : Option Key} {native : ByteOrder}
    (made : image.create crypto cbor key enckey args random = .ok next)
    (sized : imageHeaderSize ≤ image.headerSize) (other : image.endian ≠ native)
    (checker : Option Key) (trailing : Bytes) :
    verify crypto native checker (next.payload ++ trailing) = .ok .invalidMagic := by
  obtain ⟨layout, created⟩ := create_eq_ok_iff.mp made
  have length := length_header created.header
  obtain ⟨rest, front⟩ : ∃ rest, storedPayload crypto random enckey image.headerSize layout.plain =
      layout.header ++ rest := storedPayload_header length sized layout.body
  obtain ⟨_, written⟩ := pack_eq_some_iff.mp created.header
  obtain ⟨more, file⟩ : ∃ more, next.payload ++ trailing = image.endian.write 4 imageMagic ++ more := by
    rw [created.result, front, ← written]
    simp only [headerFormat, Image.headerValues, encode, List.append_assoc]
    exact ⟨_, rfl⟩
  have long : 28 ≤ (next.payload ++ trailing).length := by
    rw [created.result, front]
    simp only [List.length_append, length, imageHeaderSize]
    omega
  obtain ⟨header, read, magic⟩ := readHeader_of_length native long
  rw [file, List.take_left' (image.endian.length_write 4 imageMagic)] at magic
  rw [verify, read]
  change (if header.magic ≠ imageMagic then _ else _) = _
  rw [if_pos (magic ▸ imageMagic_other_order other)]
  rfl

theorem verify_create_signed_other_order : ∃ next, sampleSigned = .ok next ∧
    verify sampleCryptography .big none (next.payload ++ []) = .ok .invalidMagic := by
  obtain ⟨next, made⟩ := sampleSigned_ok
  exact ⟨next, made, verify_create_other_order made (by decide) (by decide) none []⟩

end Create

end Motohs.Imgtool
