import Motohs.Imgtool.Options
import Motohs.Imgtool.Slot

/-! The command `sign`: from its options to the file that it writes. -/

namespace Motohs.Imgtool

open Lib

/-- The choices of `--erased-val`. -/
inductive ErasedVal where
  | zero
  | ff
  deriving DecidableEq, Repr

def ErasedVal.value : ErasedVal → UInt8
  | .zero => 0
  | .ff => 0xff

/-- The choices of `--align`. -/
structure Align where
  size : Nat
  allowed : size ∈ [1, 2, 4, 8]

/-- The alignment that the Makefile asks for. -/
def Align.four : Align := ⟨4, by decide⟩

/-- The options and arguments of `sign`, as they are handed over, the files of the keys
apart. -/
structure SignArgs where
  publicKeyFormat : PublicKeyFormat := .hash
  align : Align
  version : List Char
  padSig : Bool := false
  headerSize : HeaderSize
  padHeader : Bool := false
  slotSize : Int
  pad : Bool := false
  confirm : Bool := false
  maxSectors : Option Int := none
  overwriteOnly : Bool := false
  endian : ByteOrder := .little
  infile : List Char
  outfile : List Char
  dependencies : Option Dependencies := none
  loadAddr : Option Int := none
  hexAddr : Option Int := none
  erasedVal : Option ErasedVal := none
  saveEnctlv : Bool := false
  securityCounter : SecurityCounter := .absent
  bootRecord : Option (List Char) := none
  customTlv : List (List Char × List Char) := []
  romFixed : Option Int := none

/-- The attributes of the image that `sign` makes. A confirmed image is padded. -/
def Image.fresh (version : SemiSemVersion) (args : SignArgs) : Image where
  version
  headerSize := args.headerSize.size
  padHeader := args.padHeader
  pad := args.confirm || args.pad
  confirm := args.confirm
  align := args.align.size
  slotSize := args.slotSize
  maxSectors := args.maxSectors
  overwriteOnly := args.overwriteOnly
  endian := args.endian
  baseAddr := none
  loadAddr := args.loadAddr.getD 0
  romFixed := args.romFixed
  erasedVal := args.erasedVal.elim 0xff ErasedVal.value
  payload := []
  enckey := none
  saveEnctlv := args.saveEnctlv
  enctlvLen := 0
  securityCounter := args.securityCounter.resolve version

/-- `Image(...)`, as `sign` calls it. -/
def Image.new (version : SemiSemVersion) (args : SignArgs) : Except Raised Image :=
  if truthy args.loadAddr ∧ truthy args.romFixed then
    .error (.usageError "Can not set rom_fixed and load_addr at the same time".toList)
  else .ok (Image.fresh version args)

/-- Whether a key for the payload may go with a key that signs. Only private keys of two
of the families mind. -/
def sameKind (key enckey : Key) : Bool :=
  match key.family, key.half with
  | .ecdsa256P1, .privateKey _ => enckey.family = .ecdsa256P1
  | .rsa2048, .privateKey _ | .rsa3072, .privateKey _ => enckey.family = .rsa2048 ∨ enckey.family = .rsa3072
  | _, _ => true

def checkKinds : Option Key → Option Key → Except Raised Unit
  | some key, some enckey =>
    if sameKind key enckey then .ok ()
    else .error (.usageError "Signing and encryption must use the same type of key".toList)
  | _, _ => .ok ()

/-- `pad_sig` is set where the class has it. -/
def setPadSig (padSig : Bool) (key : Key) : Key :=
  match key.family, key.half with
  | .ecdsa256P1, .privateKey _ => if padSig then { key with padSig := true } else key
  | _, _ => key

/-- What `sign` writes to its output file. `content` is what the input file has, if there
is one. -/
def sign (digits : Digits) (crypto : Cryptography) (cbor : Cbor) (hex : IntelHex) (args : SignArgs)
    (content : Option Bytes) (key enckey : Option Key) (random : Randomness) : Except Raised Bytes := do
  let version ← (decodeVersion digits args.version).mapError fun _ => .valueError
  let img ← Image.new version args
  let img ← img.load hex args.infile content
  checkKinds key enckey
  let key := key.map (setPadSig args.padSig)
  let customTlvs ← customTlvs digits args.customTlv []
  let img ← img.create crypto cbor key enckey
    ⟨args.publicKeyFormat, args.dependencies, args.bootRecord, customTlvs⟩ random
  img.save hex args.outfile args.hexAddr

/-- The steps of `sign` when it comes to its end. -/
structure Signed (digits : Digits) (crypto : Cryptography) (cbor : Cbor) (hex : IntelHex) (args : SignArgs)
    (content : Option Bytes) (key enckey : Option Key) (random : Randomness) (version : SemiSemVersion)
    (tlvs : List (Int × Bytes)) (first loaded next : Image) (file : Bytes) : Prop where
  decoded : decodeVersion digits args.version = .ok version
  new : Image.new version args = .ok first
  load : first.load hex args.infile content = .ok loaded
  kinds : checkKinds key enckey = .ok ()
  custom : customTlvs digits args.customTlv [] = .ok tlvs
  create : loaded.create crypto cbor (key.map (setPadSig args.padSig)) enckey
    ⟨args.publicKeyFormat, args.dependencies, args.bootRecord, tlvs⟩ random = .ok next
  save : next.save hex args.outfile args.hexAddr = .ok file

section Sign

variable {digits : Digits} {crypto : Cryptography} {cbor : Cbor} {hex : IntelHex} {args : SignArgs}
variable {content : Option Bytes} {key enckey : Option Key} {random : Randomness}

theorem mapError_eq_ok_iff {outcome : Except Error Result} {change : Error → Other} :
    outcome.mapError change = .ok result ↔ outcome = .ok result := by
  cases outcome <;> simp [Except.mapError]

theorem sign_eq_ok_iff : sign digits crypto cbor hex args content key enckey random = .ok file ↔
    ∃ version tlvs first loaded next,
      Signed digits crypto cbor hex args content key enckey random version tlvs first loaded next file := by
  unfold sign
  simp only [bind_eq_ok_iff, mapError_eq_ok_iff]
  constructor
  · rintro ⟨version, decoded, first, new, loaded, load, _, kinds, tlvs, custom, next, create, save⟩
    exact ⟨version, tlvs, first, loaded, next, decoded, new, load, kinds, custom, create, save⟩
  · rintro ⟨version, tlvs, first, loaded, next, decoded, new, load, kinds, custom, create, save⟩
    exact ⟨version, decoded, first, new, loaded, load, (), kinds, tlvs, custom, next, create, save⟩

theorem makeRoom_fields (image : Image) : ∃ payload baseAddr, image.makeRoom = { image with payload, baseAddr } := by
  unfold Image.makeRoom
  split <;> exact ⟨_, _, rfl⟩

/-- `load` leaves everything but the payload and its address alone. -/
theorem load_kept {image next : Image} (loaded : image.load hex path content = .ok next) :
    ∃ payload baseAddr, next = { image with payload, baseAddr } := by
  obtain ⟨⟨payload, baseAddr⟩, _, rest⟩ := bind_eq_ok_iff.mp loaded
  obtain ⟨_, _, done⟩ := bind_eq_ok_iff.mp rest
  cases done
  obtain ⟨payload, baseAddr, room⟩ := makeRoom_fields _
  exact ⟨payload, baseAddr, room⟩

theorem Signed.first_eq (signed : Signed digits crypto cbor hex args content key enckey random version tlvs first
    loaded next file) : first = Image.fresh version args := by
  have new := signed.new
  unfold Image.new at new
  split at new
  · cases new
  · exact (Except.ok.inj new).symm

/-- What is loaded is what the options say, the payload and its address apart. -/
theorem Signed.loaded_eq (signed : Signed digits crypto cbor hex args content key enckey random version tlvs first
    loaded next file) : ∃ payload baseAddr, loaded = { Image.fresh version args with payload, baseAddr } := by
  obtain ⟨payload, baseAddr, same⟩ := load_kept signed.load
  exact ⟨payload, baseAddr, signed.first_eq ▸ same⟩

/-- The TLVs of the command line that come into the image. -/
theorem Signed.customs (signed : Signed digits crypto cbor hex args content key enckey random version tlvs first
    loaded next file) : List.Forall₂ (CustomTlv digits) args.customTlv tlvs ∧ (tlvs.map Prod.fst).Nodup ∧
      ∀ tlv ∈ tlvs, tlv.1 ∉ tlvValues := by
  obtain ⟨_, rfl, custom⟩ := customTlvs_from_nil_iff.mp signed.custom
  exact custom

end Sign

end Motohs.Imgtool
