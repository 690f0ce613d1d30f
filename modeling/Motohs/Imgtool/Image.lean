import Motohs.Lib.Decimal
import Motohs.Imgtool.Keys
import Motohs.Imgtool.Version

/-! `image.py`: how an image gets its header, its two TLV areas and, encrypted or not,
its payload. -/

namespace Motohs.Imgtool

open Lib

def imageMagic : Nat := 0x96f3b83d

def imageHeaderSize : Nat := 32

def defaultMaxSectors : Int := 128

def maxAlign : Nat := 8

def maxSwTypeLength : Nat := 12

def bootMagic : Bytes :=
  [0x77, 0xc2, 0x95, 0xf3, 0x60, 0xd2, 0xef, 0x7f, 0x35, 0x52, 0x50, 0x0f, 0x2c, 0xb6, 0x79, 0x80]

/-- The flags of `IMAGE_F` that are set. -/
def flagEncrypted : Nat := 0x4

def flagRamLoad : Nat := 0x20

def flagRomFixed : Nat := 0x100

/-- `--security-counter` as it is handed over. -/
inductive SecurityCounter where
  | absent
  | auto
  | value (counter : Int)
  deriving DecidableEq, Repr

/-- What `get_dependencies` returns: image numbers as `int` reads them, and as many
versions. -/
structure Dependencies where
  images : List Nat
  versions : List SemiSemVersion
  paired : images.length = versions.length

inductive PublicKeyFormat where
  | hash
  | full
  deriving DecidableEq, Repr

/-- The attributes of `Image`. -/
structure Image where
  version : SemiSemVersion
  headerSize : Nat
  padHeader : Bool
  pad : Bool
  confirm : Bool
  align : Nat
  slotSize : Int
  maxSectors : Option Int
  overwriteOnly : Bool
  endian : ByteOrder
  baseAddr : Option Int
  loadAddr : Int
  romFixed : Option Int
  erasedVal : UInt8
  payload : Bytes
  enckey : Option Key
  saveEnctlv : Bool
  enctlvLen : Nat
  securityCounter : Option Int
  deriving DecidableEq

/-- A number that Python takes for true. -/
def truthy (value : Option Int) : Bool := value.getD 0 != 0

/-- `value or other` -/
def orElse (value : Option Int) (other : Int) : Int := if truthy value then value.getD 0 else other

/-- A value of the items of a boot record. -/
inductive CborValue where
  | text (chars : List Char)
  | bytes (data : Bytes)
  deriving DecidableEq, Repr

/-- `cbor.dumps` on a map from numbers. A value of bytes that comes last ends it, and what
is in front of it depends on its length only. -/
structure Cbor where
  dumps : List (Nat × CborValue) → Bytes
  dumps_bytes : ∀ items key length, ∃ front, ∀ data : Bytes, data.length = length →
    dumps (items ++ [(key, .bytes data)]) = front ++ data

/-- The measurement value is last, where the bootloader will find it. -/
def createSwComponentData (cbor : Cbor) (swType swVersion description : List Char)
    (measurement signerId : Bytes) : Bytes :=
  cbor.dumps
    [(1, .text swType), (4, .text swVersion), (5, .bytes signerId), (6, .text description),
      (2, .bytes measurement)]

/-- `'{:x}'.format(number)` -/
def hexInt : Int → List Char
  | .ofNat number => Nat.toDigits 16 number
  | .negSucc number => '-' :: Nat.toDigits 16 (number + 1)

/-- What the arguments of `create` are, besides the two keys. -/
structure CreateArgs where
  publicKeyFormat : PublicKeyFormat
  dependencies : Option Dependencies
  swType : Option (List Char)
  /-- Kinds, as `int` reads them, and payloads, in the order given. -/
  customTlvs : List (Int × Bytes)

/-- What `create` draws at random: the key for the payload, and the key pair that is
generated for the exchange. -/
structure Randomness where
  plainkey : Bytes
  length_plainkey : plainkey.length = 16
  newpk : Bytes

/-- The `auto` counter, or the one given. -/
def SecurityCounter.resolve (version : SemiSemVersion) : SecurityCounter → Option Int
  | .absent => none
  | .auto => some ((version.major <<< 24) + (version.minor <<< 16) + version.revision : Nat)
  | .value counter => some counter

def headerFormat : List Code := [.I, .I, .H, .H, .I, .I, .B, .B, .H, .I, .I]

namespace Image

/-- Header and payload of the TLVs that are to be protected. -/
def protectedRecordsSize (bootRecord : Option Bytes) (args : CreateArgs) (image : Image) : Nat :=
  (if image.securityCounter.isSome then tlvSize + 4 else 0) +
    (bootRecord.elim 0 fun record => tlvSize + record.length) +
    (args.dependencies.elim 0 fun dependencies => dependencies.images.length * 16) +
    (args.customTlvs.map fun tlv => tlvSize + tlv.2.length).sum

/-- `protected_tlv_size`, with the header of the area that they stand in. -/
def protectedTlvSize (bootRecord : Option Bytes) (args : CreateArgs) (image : Image) : Nat :=
  let size := image.protectedRecordsSize bootRecord args
  if size ≠ 0 then size + tlvInfoSize else 0

/-- The text `major.minor.revision`. -/
def versionText (version : SemiSemVersion) : List Char :=
  decimal version.major ++ '.' :: decimal version.minor ++ '.' :: decimal version.revision

/-- The boot record, with zeros for the hash that it is part of. -/
def bootRecord (cbor : Cbor) (args : CreateArgs) (pubbytes : Bytes) (image : Image) :
    Except Raised (Option Bytes) :=
  match args.swType with
  | none => .ok none
  | some swType =>
    if maxSwTypeLength < swType.length then
      .error (.usageError ('\'' :: swType ++ "' is too long (".toList ++ decimal swType.length ++
        " characters) for sw_type. Its maximum allowed length is 12 characters.".toList))
    else
      .ok (some (createSwComponentData cbor swType (versionText image.version) "SHA256".toList
        (List.replicate 32 0) pubbytes))

/-- Whole blocks of 16 bytes, as the cipher needs them. -/
def padBlocks (payload : Bytes) : Bytes :=
  if 0 < payload.length % 16 then payload ++ List.replicate (16 - payload.length % 16) 0 else payload

/-- The payload that the header is written into. -/
def prepared (enckey : Option Key) (image : Image) : Bytes :=
  if enckey.isSome then padBlocks image.payload else image.payload

/-- Who has signed, as the boot record tells it. -/
def signerId (crypto : Cryptography) : Option Key → Bytes
  | some key => crypto.sha256 (key.getPublicBytes crypto)
  | none => List.replicate 32 0

def flags (encrypted : Bool) (image : Image) : Nat :=
  (if encrypted then flagEncrypted else 0) ||| (if image.loadAddr ≠ 0 then flagRamLoad else 0) |||
    (if truthy image.romFixed then flagRomFixed else 0)

/-- The numbers of the header, the version last but one. -/
def headerValues (encrypted : Bool) (protectedSize : Nat) (image : Image) : List Int :=
  [imageMagic, orElse image.romFixed image.loadAddr, image.headerSize, protectedSize,
    (image.payload.length : Int) - image.headerSize, image.flags encrypted, image.version.major,
    image.version.minor, image.version.revision, image.version.build, 0]

def addHeader (encrypted : Bool) (protectedSize : Nat) (image : Image) : Except Raised Image := do
  let header ← structPack image.endian headerFormat (image.headerValues encrypted protectedSize)
  pure { image with payload := header ++ image.payload.drop header.length }

/-- Payload of a dependency. -/
def dependencyPayload (endian : ByteOrder) (number : Nat) (version : SemiSemVersion) :
    Except Raised Bytes :=
  structPack endian [.B, .pad, .pad, .pad, .B, .B, .H, .I]
    [number, version.major, version.minor, version.revision, version.build]

/-- The protected TLVs in the order in which they are added. -/
def protectedTlvs (bootRecord : Option Bytes) (args : CreateArgs) (image : Image) :
    Except Raised (List (Int × Bytes)) := do
  let counter ← image.securityCounter.toList.mapM fun counter => structPack image.endian [.I] [counter]
  let numbered := args.dependencies.elim [] fun dependencies => dependencies.images.zip dependencies.versions
  let dependencies ← numbered.mapM fun (number, version) => dependencyPayload image.endian number version
  let tlvs (kind : TlvKind) (payloads : List Bytes) : List (Int × Bytes) :=
    payloads.map fun payload => (kind.value, payload)
  pure (tlvs .secCnt counter ++ tlvs .bootRecord bootRecord.toList ++ tlvs .dependency dependencies ++
    args.customTlvs)

/-- The protected area, empty when there is nothing to protect. -/
def protectedArea (protectedSize : Nat) (bootRecord : Option Bytes) (args : CreateArgs)
    (image : Image) : Except Raised Bytes := do
  let tlvs ← (if protectedSize ≠ 0 then image.protectedTlvs bootRecord args else .ok [])
  let tlv ← (Tlv.new image.endian tlvProtInfoMagic).addAll tlvs
  tlv.get

variable (crypto : Cryptography)

/-- The kind and payload of the TLV that tells which key has signed. -/
def pubTlv (key : Key) : PublicKeyFormat → TlvKind × Bytes
  | .hash => (.keyHash, crypto.sha256 (key.getPublicBytes crypto))
  | .full => (.pubKey, key.getPublicBytes crypto)

/-- The TLVs of the hash and the signature. `payload` is what they are made over. -/
def signTlvs (key : Option Key) (publicKeyFormat : PublicKeyFormat) (payload : Bytes) (tlv : Tlv) :
    Except Raised Tlv := do
  let digest := crypto.sha256 payload
  let tlv ← tlv.add TlvKind.sha256.value digest
  match key with
  | none => pure tlv
  | some key => do
    let (kind, pub) := pubTlv crypto key publicKeyFormat
    let tlv ← tlv.add kind.value pub
    let sig ← key.signature crypto payload digest
    match key.sigTlv with
    | some kind => tlv.add kind.value sig
    | none => .error .keyError

/-- `ecies_hkdf`, as the payload of the TLV: public key, mac, encrypted key. -/
def eciesHkdf (enckey : Key) (random : Randomness) : Bytes :=
  let shared := crypto.exchange enckey.family random.newpk (enckey.getPublicBytes crypto)
  let derivedKey := crypto.hkdf shared
  let cipherkey := crypto.ctr (derivedKey.take 16) random.plainkey
  let ciphermac := crypto.hmac (derivedKey.drop 16) cipherkey
  let pubk := crypto.point enckey.family (crypto.publicKey enckey.family random.newpk)
  pubk ++ ciphermac ++ cipherkey

/-- The kind and payload of the TLV that the key of the payload goes into, if the class
of `enckey` is one of those looked for. -/
def encTlv (enckey : Key) (random : Randomness) : Option (TlvKind × Bytes) :=
  match enckey.family with
  | .rsa2048 | .rsa3072 =>
    some (.encRsa2048, crypto.oaepEncrypt (enckey.getPublicBytes crypto) random.plainkey)
  | .ecdsa256P1 => some (.encEc256, eciesHkdf crypto enckey random)
  | .x25519 => some (.encX25519, eciesHkdf crypto enckey random)
  | .ed25519 => none

/-- The payload after the header is encrypted, its key is added to the TLVs. -/
def encrypt (enckey : Key) (random : Randomness) (tlv : Tlv) (image : Image) :
    Except Raised (Image × Tlv) :=
  let img := image.payload.drop image.headerSize
  let payload := image.payload.take image.headerSize ++ crypto.ctr random.plainkey img
  match encTlv crypto enckey random with
  | some (kind, enctlv) => do
    let tlv ← tlv.add kind.value enctlv
    pure ({ image with payload, enctlvLen := enctlv.length }, tlv)
  | none => pure ({ image with payload }, tlv)

/-- The payload as it is stored. -/
def encryptPayload (enckey : Option Key) (random : Randomness) (tlv : Tlv) (image : Image) :
    Except Raised (Image × Tlv) :=
  match enckey with
  | some enckey => image.encrypt crypto enckey random tlv
  | none => pure (image, tlv)

/-- The space the bootloader needs at the end of the slot. -/
def trailerSize (image : Image) : Except Raised Int :=
  let magicSize := 16
  if image.overwriteOnly then .ok (maxAlign * 2 + magicSize)
  else if image.align ∉ [1, 2, 4, 8] then
    .error (.badParameter ("Invalid alignment: ".toList ++ decimal image.align))
  else
    let status := image.maxSectors.getD defaultMaxSectors * 3 * image.align
    -- `int` of a quotient rounds towards zero
    let keylen : Int :=
      if image.saveEnctlv then (((image.enctlvLen : Int) - 1).tdiv maxAlign + 1) * maxAlign else 16
    let keys := if image.enckey.isSome then keylen * 2 else 0
    .ok (status + keys + maxAlign * 4 + magicSize)

def checkTrailer (image : Image) : Except Raised Unit :=
  if 0 < image.slotSize then do
    let tsize ← image.trailerSize
    if image.slotSize - (image.payload.length + tsize) < 0 then
      .error (.usageError ("Image size (0x".toList ++ hexInt image.payload.length ++
        ") + trailer (0x".toList ++ hexInt tsize ++ ") exceeds requested size 0x".toList ++
        hexInt image.slotSize))
    else pure ()
  else pure ()

def create (cbor : Cbor) (key enckey : Option Key) (args : CreateArgs) (random : Randomness)
    (image : Image) : Except Raised Image := do
  let image := { image with enckey }
  let record ← image.bootRecord cbor args (signerId crypto key)
  let protectedSize := image.protectedTlvSize record args
  let image := { image with payload := image.prepared enckey }
  let image ← image.addHeader enckey.isSome protectedSize
  let prot ← image.protectedArea protectedSize record args
  let tlv ← signTlvs crypto key args.publicKeyFormat (image.payload ++ prot)
    (Tlv.new image.endian tlvInfoMagic)
  let (image, tlv) ← image.encryptPayload crypto enckey random tlv
  let area ← tlv.get
  let image := { image with payload := image.payload ++ prot ++ area }
  image.checkTrailer
  pure image

end Image

end Motohs.Imgtool
