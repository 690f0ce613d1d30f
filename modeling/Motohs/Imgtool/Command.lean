import Motohs.Imgtool.Encryption
import Motohs.Imgtool.Protected

/-! The commands `sign` and `verify` together, from the command line to what is printed. -/

namespace Motohs.Imgtool

open Lib

/-- The options of `sign` that the tool converts or checks itself, as they are written. -/
structure SignTexts where
  version : List Char
  securityCounter : Option (List Char) := none
  dependencies : Option (List Char) := none
  headerSize : List Char
  slotSize : List Char
  romFixed : Option (List Char) := none
  loadAddr : Option (List Char) := none
  hexAddr : Option (List Char) := none

/-- The other options, and the arguments. -/
structure SignFlags where
  publicKeyFormat : PublicKeyFormat := .hash
  align : Align
  padSig : Bool := false
  padHeader : Bool := false
  pad : Bool := false
  confirm : Bool := false
  maxSectors : Option Int := none
  bootRecord : Option (List Char) := none
  overwriteOnly : Bool := false
  endian : ByteOrder := .little
  saveEnctlv : Bool := false
  erasedVal : Option ErasedVal := none
  customTlv : List (List Char × List Char) := []
  infile : List Char
  outfile : List Char

def convertOptional (digits : Digits) : Option (List Char) → Except Raised (Option Int)
  | none => .ok none
  | some value => do
    let number ← convertInteger digits value
    pure (some number)

/-- The options are converted one by one, in the order in which they are declared. -/
def SignTexts.convert (digits : Digits) (flags : SignFlags) (texts : SignTexts) : Except Raised SignArgs := do
  let version ← validateVersion digits texts.version
  let securityCounter ← validateSecurityCounter digits texts.securityCounter
  let dependencies ← getDependencies digits texts.dependencies
  let headerSize ← convertInteger digits texts.headerSize
  let headerSize ← validateHeaderSize headerSize
  let slotSize ← convertInteger digits texts.slotSize
  let romFixed ← convertOptional digits texts.romFixed
  let loadAddr ← convertOptional digits texts.loadAddr
  let hexAddr ← convertOptional digits texts.hexAddr
  pure {
    publicKeyFormat := flags.publicKeyFormat, align := flags.align, version, padSig := flags.padSig, headerSize,
    padHeader := flags.padHeader, slotSize, pad := flags.pad, confirm := flags.confirm,
    maxSectors := flags.maxSectors, overwriteOnly := flags.overwriteOnly, endian := flags.endian,
    infile := flags.infile, outfile := flags.outfile, dependencies, loadAddr, hexAddr,
    erasedVal := flags.erasedVal, saveEnctlv := flags.saveEnctlv, securityCounter,
    bootRecord := flags.bootRecord, customTlv := flags.customTlv, romFixed }

/-- The command `sign`, as it is written on a command line. -/
def signCommand (digits : Digits) (crypto : Cryptography) (cbor : Cbor) (hex : IntelHex) (texts : SignTexts)
    (flags : SignFlags) (content : Option Bytes) (key enckey : Option Key) (random : Randomness) :
    Except Raised Bytes := do
  let args ← texts.convert digits flags
  sign digits crypto cbor hex args content key enckey random

section Sample

def sampleBareArgs : SignArgs :=
  { sampleSignArgs with dependencies := none, securityCounter := .absent, bootRecord := none, customTlv := [] }

theorem sampleBare_ok : (∃ file, sampleSign sampleBareArgs (some sampleSigner) none = .ok file) ∧
    ∃ file, sampleSign sampleBareArgs none (some sampleEnckey) = .ok file :=
  ⟨exists_of_isOk (by decide +kernel), exists_of_isOk (by decide +kernel)⟩

end Sample

section Sign

variable {digits : Digits} {crypto : Cryptography} {cbor : Cbor} {hex : IntelHex} {args : SignArgs}
variable {content : Option Bytes} {key enckey : Option Key} {random : Randomness}

/-- The bytes of the input file that room for the header is made in front of, or that come
behind the header that it brings along. -/
def SignArgs.application (app : Bytes) (args : SignArgs) : Bytes :=
  if args.padHeader then app else app.drop args.headerSize.size

theorem Signed.application (signed : Signed digits crypto cbor hex args content key enckey random version tlvs first
    loaded next file) (plain : namesHex args.infile = false) : ∃ app, content = some app ∧
      loaded.payload.drop loaded.headerSize = args.application app := by
  have first := signed.first_eq
  obtain ⟨app, here, payload⟩ := Image.load_bin plain signed.load
  obtain ⟨_, _, same⟩ := signed.loaded_eq
  have size : loaded.headerSize = args.headerSize.size := by rw [same]; rfl
  refine ⟨app, here, ?_⟩
  rw [payload, size, first, List.drop_append, List.length_replicate, List.drop_replicate]
  unfold Image.headerRoom SignArgs.application Image.fresh
  cases args.padHeader <;> simp

theorem padBlocks_drop (payload : Bytes) (count : Nat) : ∃ zeros < 16,
    (Image.padBlocks payload).drop count = payload.drop count ++ List.replicate zeros 0 := by
  have small : 16 - payload.length % 16 ≤ 16 := Nat.sub_le _ _
  unfold Image.padBlocks
  split
  · refine ⟨16 - payload.length % 16 - (count - payload.length), by omega, ?_⟩
    rw [List.drop_append, List.drop_replicate]
  · exact ⟨0, by decide, by simp⟩

/-- Whoever has the private key gets the application back from a file that `sign` has
encrypted, filled up with zeros to whole blocks. -/
theorem sign_openFile {enckey : Key}
    (done : sign digits crypto cbor hex args content key (some enckey) random = .ok file)
    (binary : namesHex args.outfile = false) (plain : namesHex args.infile = false)
    (keeps : enckey.family ≠ .ed25519)
    (owner : enckey.getPublicBytes crypto = crypto.publicKey enckey.family secret) :
    ∃ app zeros, content = some app ∧ zeros < 16 ∧ openFile crypto args.endian enckey.family secret file =
      some (args.application app ++ List.replicate zeros 0) := by
  obtain ⟨version, tlvs, first, loaded, next, signed⟩ := sign_eq_ok_iff.mp done
  obtain ⟨trailing, rfl⟩ := signed.file_eq binary
  obtain ⟨app, here, payload⟩ := signed.application plain
  obtain ⟨zeros, few, padded⟩ := padBlocks_drop loaded.payload loaded.headerSize
  have opened := openFile_create signed.create signed.sized keeps owner trailing
  rw [signed.endian] at opened
  refine ⟨app, zeros, here, few, ?_⟩
  rw [opened, ← payload, ← padded]
  rfl

theorem sign_openFile_sample : ∃ file zeros, sampleSign sampleBareArgs none (some sampleEnckey) = .ok file ∧
    zeros < 16 ∧ openFile sampleCryptography .little .x25519 sampleEncSecret file =
      some ([0x00, 0xbf, 0xfe, 0xe7] ++ List.replicate zeros 0) := by
  obtain ⟨file, done⟩ := sampleBare_ok.2
  have owner : sampleEnckey.getPublicBytes sampleCryptography =
      sampleCryptography.publicKey sampleEnckey.family sampleEncSecret := rfl
  obtain ⟨app, zeros, here, few, opened⟩ := sign_openFile done (by decide) (by decide) (by decide) owner
  cases here
  exact ⟨file, zeros, done, few, opened⟩

theorem setPadSig_eq (padSig : Bool) (key : Key) :
    (setPadSig padSig key).family = key.family ∧ (setPadSig padSig key).half = key.half := by
  unfold setPadSig
  split
  · split <;> exact ⟨rfl, rfl⟩
  · exact ⟨rfl, rfl⟩

/-- A key that has signed is a private key, and no X25519 key. -/
theorem signs_of_signature {key : Key} (signed : key.signature crypto payload digest = .ok sig) :
    key.family ≠ .x25519 ∧ ∃ secret, key.half = .privateKey secret := by
  unfold Key.signature at signed
  cases half : key.half with
  | publicKey _ =>
    rw [half] at signed
    cases signed
  | privateKey secret =>
    refine ⟨?_, secret, rfl⟩
    intro family
    rw [half, family] at signed
    cases signed

theorem sameKind_ed25519 {key enckey : Key} (same : sameKind key enckey = true) (kept : enckey.family = .ed25519)
    (half : key.half = .privateKey secret) (other : key.family ≠ .x25519) : key.family = .ed25519 := by
  unfold sameKind at same
  cases family : key.family <;> simp_all

/-- The key of an encrypted file is among its TLVs, unless it was encrypted for an Ed25519
key. That is refused when the file is signed, but for a signature with an Ed25519 key. -/
theorem sign_keepsKey_iff {enckey : Key}
    (done : sign digits crypto cbor hex args content key (some enckey) random = .ok file)
    (binary : namesHex args.outfile = false) :
    ∃ records, readRecords args.endian file = some records ∧
      ((∃ record ∈ records, KeepsKey record) ↔ enckey.family ≠ .ed25519) ∧
      (enckey.family = .ed25519 → ∀ signer, key = some signer → signer.family = .ed25519) := by
  obtain ⟨version, tlvs, first, loaded, next, signed⟩ := sign_eq_ok_iff.mp done
  obtain ⟨trailing, rfl⟩ := signed.file_eq binary
  obtain ⟨records, read, keeps⟩ := create_keepsKey_iff signed.create signed.sized trailing
  rw [signed.endian] at read
  refine ⟨records, read, keeps, ?_⟩
  rintro lost signer rfl
  obtain ⟨layout, created⟩ := create_eq_ok_iff.mp signed.create
  obtain ⟨family, half⟩ := setPadSig_eq args.padSig signer
  have signs := created.signs
  rw [Option.map_some] at signs
  generalize layout.signs = records at signs
  cases signs with
  | signed _ _ signature _ _ =>
    obtain ⟨other, secret, isPrivate⟩ := signs_of_signature signature
    have kinds := signed.kinds
    unfold checkKinds at kinds
    dsimp only at kinds
    split at kinds
    · rename_i same
      exact sameKind_ed25519 same lost (half ▸ isPrivate) (family ▸ other)
    · cases kinds

theorem sign_keepsKey_sample : ∃ file records, sampleSign sampleBareArgs none (some sampleEnckey) = .ok file ∧
    readRecords .little file = some records ∧
    ((∃ record ∈ records, KeepsKey record) ↔ sampleEnckey.family ≠ .ed25519) := by
  obtain ⟨file, done⟩ := sampleBare_ok.2
  obtain ⟨records, read, keeps, _⟩ := sign_keepsKey_iff done (by decide)
  exact ⟨file, records, done, read, keeps⟩

end Sign

end Motohs.Imgtool
