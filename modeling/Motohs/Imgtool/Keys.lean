import Motohs.Imgtool.Tlv

/-! The key classes of `keys` and what the image code calls on a key. What `hashlib` and
the package `cryptography` compute is a parameter. -/

namespace Motohs.Imgtool

open Lib

/-- The four families of key classes. RSA has the sizes of `RSA_KEY_SIZES`. -/
inductive KeyFamily where
  | rsa2048
  | rsa3072
  | ecdsa256P1
  | ed25519
  | x25519
  deriving DecidableEq, Repr

/-- The functions of `hashlib` and `cryptography` that are called, with what they are
documented to do. A public key stands for itself in the form of `get_public_bytes`, a
private key is known by its secret. The random numbers that signing and OAEP draw are
part of the function. -/
structure Cryptography where
  sha256 : Bytes → Bytes
  length_sha256 : ∀ data, (sha256 data).length = 32
  publicKey : KeyFamily → Bytes → Bytes
  sign : KeyFamily → Bytes → Bytes → Bytes
  /-- `verify` returns, instead of raising `InvalidSignature`. -/
  accepts : KeyFamily → Bytes → Bytes → Bytes → Bool
  accepts_sign : ∀ family secret data,
    accepts family (publicKey family secret) (sign family secret data) data = true
  /-- A signature over P-256 is a DER sequence of at most 72 bytes. -/
  sign_ecdsa : ∀ secret data, ∃ body : Bytes, body.length ≤ 70 ∧
    sign .ecdsa256P1 secret data = 0x30 :: UInt8.ofNat body.length :: body
  /-- The key stream of AES in CTR mode from a zero nonce, byte by byte. -/
  keyStream : Bytes → Nat → UInt8
  oaepEncrypt : Bytes → Bytes → Bytes
  oaepDecrypt : Bytes → Bytes → Option Bytes
  oaepDecrypt_encrypt : ∀ family secret message, family = .rsa2048 ∨ family = .rsa3072 →
    oaepDecrypt secret (oaepEncrypt (publicKey family secret) message) = some message
  /-- The shared secret of one's own secret and the other's public key. -/
  exchange : KeyFamily → Bytes → Bytes → Bytes
  exchange_comm : ∀ family one other, exchange family one (publicKey family other) =
    exchange family other (publicKey family one)
  /-- A public key as a bare point, the form in which it goes into an image. -/
  point : KeyFamily → Bytes → Bytes
  ofPoint : KeyFamily → Bytes → Bytes
  ofPoint_point : ∀ family secret,
    ofPoint family (point family (publicKey family secret)) = publicKey family secret
  length_point : ∀ secret, (point .ecdsa256P1 (publicKey .ecdsa256P1 secret)).length = 65 ∧
    (point .x25519 (publicKey .x25519 secret)).length = 32
  /-- HKDF with SHA256 and the info `MCUBoot_ECIES_v1`, 48 bytes. -/
  hkdf : Bytes → Bytes
  hmac : Bytes → Bytes → Bytes
  length_hmac : ∀ key data, (hmac key data).length = 32

/-- The data put through CTR mode, either way. -/
def Cryptography.ctr (crypto : Cryptography) (key data : Bytes) : Bytes :=
  data.mapIdx fun index byte => byte ^^^ crypto.keyStream key index

theorem Cryptography.length_ctr (crypto : Cryptography) (key data : Bytes) :
    (crypto.ctr key data).length = data.length := List.length_mapIdx

theorem Cryptography.ctr_ctr (crypto : Cryptography) (key data : Bytes) :
    crypto.ctr key (crypto.ctr key data) = data := by
  apply List.ext_getElem
  · simp [ctr]
  · intro index _ _
    simp only [ctr, List.getElem_mapIdx]
    rw [UInt8.xor_assoc, UInt8.xor_self, UInt8.xor_zero]

inductive KeyHalf where
  | publicKey (key : Bytes)
  | privateKey (secret : Bytes)
  deriving DecidableEq, Repr

/-- An object of one of the key classes. `padSig` is `pad_sig`, which only `ECDSA256P1`
has. -/
structure Key where
  family : KeyFamily
  half : KeyHalf
  padSig : Bool := false
  deriving DecidableEq, Repr

/-- `sig_len` of the ECDSA classes. -/
def ecdsaSigLen : Nat := 72

namespace Key

variable (crypto : Cryptography)

def getPublicBytes (key : Key) : Bytes :=
  match key.half with
  | .publicKey bytes => bytes
  | .privateKey secret => crypto.publicKey key.family secret

/-- What `TLV_VALUES` has for `sig_tlv()`. It has no `X25519`. -/
def sigTlv (key : Key) : Option TlvKind :=
  match key.family with
  | .rsa2048 => some .rsa2048
  | .rsa3072 => some .rsa3072
  | .ecdsa256P1 => some .ecdsa256
  | .ed25519 => some .ed25519
  | .x25519 => none

/-- `sign` of `ECDSA256P1`. -/
def ecdsaSign (padSig : Bool) (sig : Bytes) : Bytes :=
  if padSig then sig ++ List.replicate (ecdsaSigLen - sig.length) 0 else sig

/-- `sign` on the whole payload where the class has it, else `sign_digest` on the digest.
The public classes have neither, and the key that `X25519` wraps does not sign. -/
def signature (key : Key) (payload digest : Bytes) : Except Raised Bytes :=
  match key.half with
  | .publicKey _ => .error .attributeError
  | .privateKey secret =>
    match key.family with
    | .rsa2048 | .rsa3072 => .ok (crypto.sign key.family secret payload)
    | .ecdsa256P1 => .ok (ecdsaSign key.padSig (crypto.sign key.family secret payload))
    | .ed25519 => .ok (crypto.sign key.family secret digest)
    | .x25519 => .error .attributeError

/-- `verify` of the ECDSA classes, which strips what `sign` may have padded. -/
def ecdsaVerify (key : Key) (sig payload : Bytes) : Except Raised Bool :=
  match sig[1]? with
  | none => .error .indexError
  | some length =>
    .ok (crypto.accepts key.family (key.getPublicBytes crypto) (sig.take (length.toNat + 2)) payload)

/-- `verify` where the class has it, else `verify_digest`: whether it returns, instead of
raising `InvalidSignature`. Of the Edwards and Montgomery families only the private
classes have `verify_digest`, and the key that `X25519` wraps does not verify. -/
def verify (key : Key) (sig payload digest : Bytes) : Except Raised Bool :=
  match key.family, key.half with
  | .rsa2048, _ | .rsa3072, _ =>
    .ok (crypto.accepts key.family (key.getPublicBytes crypto) sig payload)
  | .ecdsa256P1, _ => key.ecdsaVerify crypto sig payload
  | .ed25519, .privateKey _ =>
    .ok (crypto.accepts key.family (key.getPublicBytes crypto) sig digest)
  | .ed25519, .publicKey _ | .x25519, _ => .error .attributeError

/-- A key that can verify: any but the public Ed25519 class and the X25519 classes. -/
def Verifies (key : Key) : Prop :=
  key.family ≠ .x25519 ∧ ∀ bytes, key.family = .ed25519 → key.half ≠ .publicKey bytes

/-- The other verifies what the one has signed. -/
structure Matches (one other : Key) : Prop where
  family : other.family = one.family
  publicBytes : other.getPublicBytes crypto = one.getPublicBytes crypto
  verifies : other.Verifies

variable {crypto}

end Key

end Motohs.Imgtool
