import Motohs.Imgtool.Layout

/-! `Image.verify`: the header and the TLVs of a file are looked through from the front
until one of them decides. -/

namespace Motohs.Imgtool

open Lib

/-- `VerifyResult`, with the version and the digest that come with `OK`. -/
inductive VerifyResult where
  | ok (version : SemiSemVersion) (digest : Bytes)
  | invalidMagic
  | invalidTlvInfoMagic
  | invalidHash
  | invalidSignature
  deriving DecidableEq, Repr

/-- What `verify` reads of the header. -/
structure ImageHeader where
  magic : Nat
  headerSize : Nat
  imgSize : Nat
  version : SemiSemVersion
  deriving DecidableEq, Repr

/-- Without a prefix `struct` takes the byte order of the host. In these formats its
alignment adds nothing. -/
def readHeader (native : ByteOrder) (b : Bytes) : Except Raised ImageHeader := do
  let sizes ← structUnpack native [.I, .I, .H, .H, .I] (b.take 16)
  let version ← structUnpack native [.B, .B, .H, .I] ((b.drop 20).take 8)
  match sizes, version with
  | [magic, _, headerSize, _, imgSize], [major, minor, revision, build] =>
    pure ⟨magic, headerSize, imgSize, ⟨major, minor, revision, build⟩⟩
  | _, _ => .error .structError

/-- Magic and total length of the area at that offset. -/
def tlvInfo (native : ByteOrder) (b : Bytes) (tlvOff : Nat) : Except Raised (Nat × Nat) := do
  match ← structUnpack native [.H, .H] ((b.drop tlvOff).take tlvInfoSize) with
  | [magic, tlvTot] => pure (magic, tlvTot)
  | _ => .error .structError

/-- Where the area with the signature is, past a protected one, with its magic and
length. -/
def findArea (native : ByteOrder) (b : Bytes) (tlvOff : Nat) : Except Raised (Nat × Nat × Nat) := do
  let (magic, tlvTot) ← tlvInfo native b tlvOff
  if magic = tlvProtInfoMagic then do
    let info ← tlvInfo native b (tlvOff + tlvTot)
    pure (tlvOff + tlvTot, info)
  else pure (tlvOff, magic, tlvTot)

variable (crypto : Cryptography)

/-- What a single TLV decides, if anything. -/
def judgeTlv (key : Option Key) (version : SemiSemVersion) (payload digest : Bytes) (tlvType : Nat)
    (value : Bytes) : Except Raised (Option VerifyResult) :=
  if tlvType = TlvKind.sha256.value then
    if digest = value then
      match key with
      | none => .ok (some (.ok version digest))
      | some _ => .ok none
    else .ok (some .invalidHash)
  else
    match key with
    | none => .ok none
    | some key =>
      match key.sigTlv with
      | none => .error .keyError
      | some kind =>
        if tlvType = kind.value then do
          let valid ← key.verify crypto value payload digest
          pure (if valid then some (.ok version digest) else none)
        else .ok none

/-- The loop over the TLVs. -/
def verifyTlvs (native : ByteOrder) (b : Bytes) (key : Option Key) (version : SemiSemVersion)
    (payload digest : Bytes) (tlvEnd tlvOff : Nat) : Except Raised VerifyResult :=
  if tlvOff < tlvEnd then do
    match ← structUnpack native [.B, .B, .H] ((b.drop tlvOff).take tlvSize) with
    | [tlvType, _, tlvLen] =>
      let value := (b.drop (tlvOff + tlvSize)).take tlvLen
      match ← judgeTlv crypto key version payload digest tlvType value with
      | some result => pure result
      | none => verifyTlvs native b key version payload digest tlvEnd (tlvOff + (tlvSize + tlvLen))
    | _ => .error .structError
  else pure .invalidSignature
termination_by tlvEnd - tlvOff
decreasing_by
  simp only [tlvSize]
  omega

def verify (native : ByteOrder) (key : Option Key) (b : Bytes) : Except Raised VerifyResult := do
  let header ← readHeader native b
  if header.magic ≠ imageMagic then pure .invalidMagic
  else do
    let (tlvOff, magic, tlvTot) ← findArea native b (header.headerSize + header.imgSize)
    if magic ≠ tlvInfoMagic then pure .invalidTlvInfoMagic
    else
      let payload := b.take tlvOff
      verifyTlvs crypto native b key header.version payload (crypto.sha256 payload) (tlvOff + tlvTot)
        (tlvOff + tlvInfoSize)

end Motohs.Imgtool
