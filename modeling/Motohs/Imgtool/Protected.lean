import Motohs.Imgtool.Flash
import Motohs.Imgtool.Sign

/-! What a bootloader finds in the protected area of a file that `sign` has written. -/

namespace Motohs.Imgtool

open Lib

/-- The protected TLVs, where the header says that they are. -/
def readProtected (native : ByteOrder) (b : Bytes) : List (Int × Bytes) :=
  match readHeader native b with
  | .error _ => []
  | .ok header =>
    match readArea native tlvProtInfoMagic (b.drop (header.headerSize + header.imgSize)) with
    | none => []
    | some (records, _) => records.map Record.pair

/-- The payloads of the TLVs of a kind. -/
def payloads (kind : TlvKind) (tlvs : List (Int × Bytes)) : List Bytes :=
  (tlvs.filter fun tlv => tlv.1 = (kind.value : Int)).map Prod.snd

/-- The TLVs of no predefined kind. -/
def others (tlvs : List (Int × Bytes)) : List (Int × Bytes) := tlvs.filter fun tlv => tlv.1 ∉ tlvValues

def readCounter (native : ByteOrder) (payload : Bytes) : Option Int :=
  match unpack native [.I] payload with
  | some [counter] => some counter
  | _ => none

def readDependency (native : ByteOrder) (payload : Bytes) : Option (Nat × SemiSemVersion) :=
  match unpack native [.B, .pad, .pad, .pad, .B, .B, .H, .I] payload with
  | some [number, major, minor, revision, build] => some (number, ⟨major, minor, revision, build⟩)
  | _ => none

/-- The TLVs say what was asked for, each thing once and nothing else. -/
structure Announces (image : Image) (record : Option Bytes) (args : CreateArgs) (tlvs : List (Int × Bytes)) :
    Prop where
  counter : (payloads .secCnt tlvs).map (readCounter image.endian) = (image.securityCounter.map some).toList
  bootRecord : payloads .bootRecord tlvs = record.toList
  dependencies : (payloads .dependency tlvs).map (readDependency image.endian) =
    (args.dependencies.elim [] fun dependencies => dependencies.images.zip dependencies.versions).map some
  custom : others tlvs = args.customTlvs
  nothingElse : ∀ kind, kind ∉ [TlvKind.secCnt, .bootRecord, .dependency] → payloads kind tlvs = []

section Tlvs

theorem payloads_append (kind : TlvKind) (front back : List (Int × Bytes)) :
    payloads kind (front ++ back) = payloads kind front ++ payloads kind back := by
  simp [payloads]

theorem others_append (front back : List (Int × Bytes)) : others (front ++ back) = others front ++ others back :=
  List.filter_append ..

/-- TLVs of one kind. -/
def ofKind (kind : TlvKind) (contents : List Bytes) : List (Int × Bytes) :=
  contents.map fun content => ((kind.value : Int), content)

theorem payloads_ofKind (kind : TlvKind) (contents : List Bytes) : payloads kind (ofKind kind contents) = contents := by
  simp [payloads, ofKind, List.filter_map, Function.comp_def]

theorem payloads_ofKind_other {kind other : TlvKind} (apart : other ≠ kind) (contents : List Bytes) :
    payloads kind (ofKind other contents) = [] := by
  have value : other.value ≠ kind.value := fun same => apart (TlvKind.value_injective same)
  simp [payloads, ofKind, value]

theorem mem_tlvValues (kind : TlvKind) : (kind.value : Int) ∈ tlvValues := by
  have each : kind ∈ tlvKinds := by cases kind <;> decide
  exact List.mem_map_of_mem each

theorem others_ofKind (kind : TlvKind) (contents : List Bytes) : others (ofKind kind contents) = [] := by
  simp [others, ofKind, mem_tlvValues]

theorem payloads_custom {tlvs : List (Int × Bytes)} (custom : ∀ tlv ∈ tlvs, tlv.1 ∉ tlvValues) (kind : TlvKind) :
    payloads kind tlvs = [] := by
  rw [payloads, List.map_eq_nil_iff, List.filter_eq_nil_iff]
  intro tlv member same
  exact custom tlv member (of_decide_eq_true same ▸ mem_tlvValues kind)

theorem others_custom {tlvs : List (Int × Bytes)} (custom : ∀ tlv ∈ tlvs, tlv.1 ∉ tlvValues) :
    others tlvs = tlvs := by
  rw [others, List.filter_eq_self]
  exact fun tlv member => decide_eq_true (custom tlv member)

end Tlvs

section Read

theorem readCounter_pack (packed : structPack endian [.I] [counter] = .ok payload) :
    readCounter endian payload = some counter := by
  have packed := structPack_eq_ok_iff.mp packed
  obtain ⟨fits, _⟩ := pack_eq_some_iff.mp packed
  simp [Fits] at fits
  simp [readCounter, unpack_pack packed, Int.toNat_of_nonneg fits.1]

theorem readDependency_pack (packed : Image.dependencyPayload endian number version = .ok payload) :
    readDependency endian payload = some (number, version) := by
  simp [readDependency, unpack_pack (structPack_eq_ok_iff.mp packed)]

/-- Payloads that are read one by one. -/
theorem map_eq_of_forall₂ {Item : Type} {write : Item → Except Raised Bytes} {items : List Item}
    {contents : List Bytes} (read : Bytes → Option Item)
    (one : ∀ item content, write item = .ok content → read content = some item)
    (each : List.Forall₂ (fun item content => write item = .ok content) items contents) :
    contents.map read = items.map some := by
  induction each with
  | nil => rfl
  | cons made _ ih => rw [List.map_cons, List.map_cons, one _ _ made, ih]

variable {image : Image} {args : CreateArgs}

theorem announces_of_made (made : image.protectedTlvs record args = .ok tlvs)
    (custom : ∀ tlv ∈ args.customTlvs, tlv.1 ∉ tlvValues) : Announces image record args tlvs := by
  simp only [Image.protectedTlvs, bind_eq_ok_iff, mapM_eq_ok_iff] at made
  obtain ⟨counters, counterEach, dependencies, dependencyEach, done⟩ := made
  have same : ofKind .secCnt counters ++ ofKind .bootRecord record.toList ++ ofKind .dependency dependencies ++
      args.customTlvs = tlvs := Except.ok.inj done
  have countersRead := map_eq_of_forall₂ (readCounter image.endian) (fun _ _ made => readCounter_pack made) counterEach
  have dependenciesRead :=
    map_eq_of_forall₂ (readDependency image.endian) (fun _ _ made => readDependency_pack made) dependencyEach
  constructor
  · rw [← same]
    simp only [payloads_append, payloads_ofKind, payloads_custom custom, List.append_nil,
      payloads_ofKind_other (show TlvKind.bootRecord ≠ .secCnt by decide),
      payloads_ofKind_other (show TlvKind.dependency ≠ .secCnt by decide)]
    rw [countersRead]
    cases image.securityCounter <;> rfl
  · rw [← same]
    simp only [payloads_append, payloads_ofKind, payloads_custom custom, List.append_nil, List.nil_append,
      payloads_ofKind_other (show TlvKind.secCnt ≠ .bootRecord by decide),
      payloads_ofKind_other (show TlvKind.dependency ≠ .bootRecord by decide)]
  · rw [← same]
    simp only [payloads_append, payloads_ofKind, payloads_custom custom, List.append_nil, List.nil_append,
      payloads_ofKind_other (show TlvKind.secCnt ≠ .dependency by decide),
      payloads_ofKind_other (show TlvKind.bootRecord ≠ .dependency by decide)]
    exact dependenciesRead
  · rw [← same]
    simp only [others_append, others_ofKind, others_custom custom, List.nil_append]
  · intro kind other
    have apart (made : TlvKind) (member : made ∈ [TlvKind.secCnt, .bootRecord, .dependency]) : made ≠ kind :=
      fun same => other (same ▸ member)
    rw [← same]
    simp only [payloads_append, payloads_custom custom, payloads_ofKind_other (apart .secCnt (by decide)),
      payloads_ofKind_other (apart .bootRecord (by decide)), payloads_ofKind_other (apart .dependency (by decide)),
      List.append_nil]

end Read

section Create

variable {crypto : Cryptography} {cbor : Cbor} {key enckey : Option Key} {args : CreateArgs}
variable {random : Randomness} {image next : Image}

/-- The protected records are read back from the file, encrypted or not. -/
theorem Created.readProtected (created : Created crypto cbor key enckey args random image next layout)
    (sized : imageHeaderSize ≤ image.headerSize) (trailing : Bytes) :
    Imgtool.readProtected image.endian (next.payload ++ trailing) = layout.prot.map Record.pair := by
  have areas : (next.payload ++ trailing).drop
      (image.headerSize + ((image.prepared enckey).length - image.headerSize)) =
        layout.protArea image.endian ++ (layout.area image.endian ++ trailing) := by
    rw [created.size_stored sized, created.result]
    simp only [List.append_assoc, List.drop_left]
  rw [Imgtool.readProtected, created.readHeader_file sized trailing]
  simp only [areas]
  by_cases empty : layout.prot = []
  · have foreign := readArea_foreign created.signs_ne_nil (by decide) created.areaFits
      (show tlvInfoMagic ≠ tlvProtInfoMagic by decide) trailing
    rw [Layout.protArea, empty]
    change (match Imgtool.readArea image.endian tlvProtInfoMagic
      (writeArea image.endian tlvInfoMagic (layout.signs ++ layout.keeps) ++ trailing) with
      | none => [] | some (records, _) => records.map Record.pair) = _
    rw [foreign]
    rfl
  · rw [Layout.protArea, readArea_writeArea empty (by decide) created.protFits]

/-- A reader finds in the file what was to be protected: the counter, the boot record, the
dependencies as numbers, and the TLVs of the command line under their own tags. -/
theorem create_announces (made : image.create crypto cbor key enckey args random = .ok next)
    (sized : imageHeaderSize ≤ image.headerSize) (custom : ∀ tlv ∈ args.customTlvs, tlv.1 ∉ tlvValues)
    (trailing : Bytes) : ∃ record, image.bootRecord cbor args (Image.signerId crypto key) = .ok record ∧
      Announces image record args (readProtected image.endian (next.payload ++ trailing)) := by
  obtain ⟨layout, created⟩ := create_eq_ok_iff.mp made
  rw [created.readProtected sized trailing]
  exact ⟨layout.bootRecord, created.bootRecord, announces_of_made created.prot custom⟩

end Create

section Sample

def sampleSignArgs : SignArgs where
  align := .four
  version := "1.2.3+4".toList
  headerSize := .least
  padHeader := true
  slotSize := 4096
  infile := "app.bin".toList
  outfile := "signed.bin".toList
  dependencies := some ⟨[1], [⟨1, 0, 0, 0⟩], rfl⟩
  securityCounter := .auto
  bootRecord := some "CoFM".toList
  customTlv := [("0xa0".toList, "0x0102".toList)]

def sampleLaterArgs : SignArgs :=
  { sampleSignArgs with version := "1.10".toList, dependencies := none, bootRecord := none, customTlv := [] }

def sampleSign (args : SignArgs) (key enckey : Option Key) : Except Raised Bytes :=
  sign asciiDigits sampleCryptography sampleCbor sampleHex args (some [0x00, 0xbf, 0xfe, 0xe7]) key enckey
    sampleRandomness

theorem sampleSign_ok : (∃ file, sampleSign sampleSignArgs none none = .ok file) ∧
    ∃ file, sampleSign sampleLaterArgs none none = .ok file :=
  ⟨exists_of_isOk (by decide +kernel), exists_of_isOk (by decide +kernel)⟩

end Sample

section Sign

variable {digits : Digits} {crypto : Cryptography} {cbor : Cbor} {hex : IntelHex} {args : SignArgs}
variable {content : Option Bytes} {key enckey : Option Key} {random : Randomness}

/-- What is passed on to `create`. -/
def SignArgs.createArgs (tlvs : List (Int × Bytes)) (args : SignArgs) : CreateArgs :=
  ⟨args.publicKeyFormat, args.dependencies, args.bootRecord, tlvs⟩

theorem signerId_setPadSig (crypto : Cryptography) (padSig : Bool) (key : Option Key) :
    Image.signerId crypto (key.map (setPadSig padSig)) = Image.signerId crypto key := by
  cases key with
  | none => rfl
  | some key =>
    have same : (setPadSig padSig key).getPublicBytes crypto = key.getPublicBytes crypto := by
      unfold setPadSig
      split
      · split <;> rfl
      · rfl
    exact congrArg crypto.sha256 same

/-- A binary output file begins with the image. -/
theorem Signed.file_eq (signed : Signed digits crypto cbor hex args content key enckey random version tlvs first
    loaded next file) (binary : namesHex args.outfile = false) : ∃ trailing, file = next.payload ++ trailing := by
  have save := signed.save
  rw [Image.save, binary] at save
  exact Image.saveBin_append save

theorem Signed.endian (signed : Signed digits crypto cbor hex args content key enckey random version tlvs first
    loaded next file) : loaded.endian = args.endian := by
  obtain ⟨_, _, rfl⟩ := signed.loaded_eq
  rfl

theorem Signed.sized (signed : Signed digits crypto cbor hex args content key enckey random version tlvs first
    loaded next file) : imageHeaderSize ≤ loaded.headerSize := by
  obtain ⟨_, _, rfl⟩ := signed.loaded_eq
  exact args.headerSize.sized

theorem Signed.announces (signed : Signed digits crypto cbor hex args content key enckey random version tlvs first
    loaded next file) (binary : namesHex args.outfile = false) : ∃ record,
      (Image.fresh version args).bootRecord cbor (args.createArgs tlvs) (Image.signerId crypto key) = .ok record ∧
      Announces (Image.fresh version args) record (args.createArgs tlvs) (readProtected args.endian file) := by
  obtain ⟨_, _, apart⟩ := signed.customs
  obtain ⟨trailing, rfl⟩ := signed.file_eq binary
  obtain ⟨record, recorded, announces⟩ := create_announces signed.create signed.sized apart trailing
  rw [signerId_setPadSig] at recorded
  rw [signed.endian] at announces
  obtain ⟨_, _, rfl⟩ := signed.loaded_eq
  exact ⟨record, recorded, ⟨announces.counter, announces.bootRecord, announces.dependencies, announces.custom,
    announces.nothingElse⟩⟩

/-- The bootloader finds in the file what the command line has asked for: no option is
lost, and no TLV of the command line can take the place of a predefined one or of another. -/
theorem sign_announces (done : sign digits crypto cbor hex args content key enckey random = .ok file)
    (binary : namesHex args.outfile = false) :
    ∃ version tlvs record, decodeVersion digits args.version = .ok version ∧
      List.Forall₂ (CustomTlv digits) args.customTlv tlvs ∧ (tlvs.map Prod.fst).Nodup ∧
      (Image.fresh version args).bootRecord cbor (args.createArgs tlvs) (Image.signerId crypto key) = .ok record ∧
      Announces (Image.fresh version args) record (args.createArgs tlvs) (readProtected args.endian file) := by
  obtain ⟨version, tlvs, first, loaded, next, signed⟩ := sign_eq_ok_iff.mp done
  obtain ⟨custom, distinct, _⟩ := signed.customs
  obtain ⟨record, recorded, announces⟩ := signed.announces binary
  exact ⟨version, tlvs, record, signed.decoded, custom, distinct, recorded, announces⟩

theorem sign_announces_sample : ∃ file version tlvs record, sampleSign sampleSignArgs none none = .ok file ∧
    decodeVersion asciiDigits "1.2.3+4".toList = .ok version ∧
    List.Forall₂ (CustomTlv asciiDigits) sampleSignArgs.customTlv tlvs ∧
    Announces (Image.fresh version sampleSignArgs) record (sampleSignArgs.createArgs tlvs)
      (readProtected .little file) := by
  obtain ⟨file, done⟩ := sampleSign_ok.1
  obtain ⟨version, tlvs, record, decoded, custom, _, _, announces⟩ := sign_announces done (by decide)
  exact ⟨file, version, tlvs, record, done, decoded, custom, announces⟩

/-- The hash in a boot record can be put in afterwards, in place of the zeros at its end. -/
theorem bootRecord_patch {image : Image} {createArgs : CreateArgs} (named : createArgs.swType = some swType)
    (made : image.bootRecord cbor createArgs signer = .ok record) : ∃ data, record = some data ∧
      ∀ digest : Bytes, digest.length = 32 → data.take (data.length - 32) ++ digest =
        createSwComponentData cbor swType (Image.versionText image.version) "SHA256".toList digest signer := by
  unfold Image.bootRecord at made
  rw [named] at made
  dsimp only at made
  split at made
  · cases made
  · cases made
    refine ⟨_, rfl, fun digest length => ?_⟩
    obtain ⟨front, written⟩ := cbor.dumps_bytes
      [(1, .text swType), (4, .text (Image.versionText image.version)), (5, .bytes signer), (6, .text "SHA256".toList)]
      2 32
    have zeros := written (List.replicate 32 0) List.length_replicate
    have other := written digest length
    simp only [List.cons_append, List.nil_append] at zeros other
    rw [createSwComponentData, createSwComponentData, zeros, other]
    simp

/-- The boot record of a file has room for the hash of the image, where the bootloader puts it. -/
theorem sign_bootRecord (done : sign digits crypto cbor hex args content key enckey random = .ok file)
    (binary : namesHex args.outfile = false) (named : args.bootRecord = some swType) :
    ∃ version data, decodeVersion digits args.version = .ok version ∧
      payloads .bootRecord (readProtected args.endian file) = [data] ∧
      ∀ digest : Bytes, digest.length = 32 → data.take (data.length - 32) ++ digest =
        createSwComponentData cbor swType (Image.versionText version) "SHA256".toList digest
          (Image.signerId crypto key) := by
  obtain ⟨version, tlvs, first, loaded, next, signed⟩ := sign_eq_ok_iff.mp done
  obtain ⟨record, made, announces⟩ := signed.announces binary
  obtain ⟨data, rfl, patched⟩ := bootRecord_patch (show (args.createArgs tlvs).swType = some swType from named) made
  exact ⟨version, data, signed.decoded, announces.bootRecord, patched⟩

theorem sign_bootRecord_sample : ∃ file version data, sampleSign sampleSignArgs none none = .ok file ∧
    decodeVersion asciiDigits "1.2.3+4".toList = .ok version ∧
    payloads .bootRecord (readProtected .little file) = [data] ∧
    ∀ digest : Bytes, digest.length = 32 → data.take (data.length - 32) ++ digest =
      createSwComponentData sampleCbor "CoFM".toList (Image.versionText version) "SHA256".toList digest
        (Image.signerId sampleCryptography none) := by
  obtain ⟨file, done⟩ := sampleSign_ok.1
  obtain ⟨version, data, decoded, read, patched⟩ := sign_bootRecord done (by decide) rfl
  exact ⟨file, version, data, done, decoded, read, patched⟩

/-- One version comes before another, builds apart. -/
def SemiSemVersion.Before (one other : SemiSemVersion) : Prop :=
  one.major < other.major ∨ one.major = other.major ∧
    (one.minor < other.minor ∨ one.minor = other.minor ∧ one.revision < other.revision)

/-- A version that fits into a header. -/
structure SemiSemVersion.Fits (version : SemiSemVersion) : Prop where
  major : version.major < 256
  minor : version.minor < 256
  revision : version.revision < 65536

theorem Created.version_fits {image : Image}
    (created : Created crypto cbor key enckey createArgs random image next layout) : image.version.Fits := by
  obtain ⟨fits, _⟩ := pack_eq_some_iff.mp created.header
  simp [Lib.Fits, headerFormat, Image.headerValues] at fits
  constructor <;> omega

theorem Signed.version_fits (signed : Signed digits crypto cbor hex args content key enckey random version tlvs first
    loaded next file) : version.Fits := by
  obtain ⟨_, created⟩ := create_eq_ok_iff.mp signed.create
  have fits := created.version_fits
  obtain ⟨_, _, rfl⟩ := signed.loaded_eq
  exact fits

/-- The counter that is generated from a version. -/
def SemiSemVersion.counter (version : SemiSemVersion) : Nat :=
  version.major * 2 ^ 24 + version.minor * 2 ^ 16 + version.revision

theorem resolve_auto (version : SemiSemVersion) :
    SecurityCounter.auto.resolve version = some (version.counter : Int) := by
  simp [SecurityCounter.resolve, SemiSemVersion.counter, Nat.shiftLeft_eq]

theorem counter_lt_iff {one other : SemiSemVersion} (fits : one.Fits) (otherFits : other.Fits) :
    one.counter < other.counter ↔ one.Before other := by
  obtain ⟨major, minor, revision⟩ := fits
  obtain ⟨otherMajor, otherMinor, otherRevision⟩ := otherFits
  unfold SemiSemVersion.counter SemiSemVersion.Before
  omega

theorem counter_eq_iff {one other : SemiSemVersion} (fits : one.Fits) (otherFits : other.Fits) :
    one.counter = other.counter ↔
      one.major = other.major ∧ one.minor = other.minor ∧ one.revision = other.revision := by
  obtain ⟨major, minor, revision⟩ := fits
  obtain ⟨otherMajor, otherMinor, otherRevision⟩ := otherFits
  unfold SemiSemVersion.counter
  omega

theorem sign_counter (done : sign digits crypto cbor hex args content key enckey random = .ok file)
    (binary : namesHex args.outfile = false) (auto : args.securityCounter = .auto) :
    ∃ version, decodeVersion digits args.version = .ok version ∧ version.Fits ∧
      (payloads .secCnt (readProtected args.endian file)).map (readCounter args.endian) =
        [some (version.counter : Int)] := by
  obtain ⟨version, tlvs, first, loaded, next, signed⟩ := sign_eq_ok_iff.mp done
  obtain ⟨_, _, announces⟩ := signed.announces binary
  refine ⟨version, signed.decoded, signed.version_fits, ?_⟩
  have counter := announces.counter
  rw [Image.fresh, auto, resolve_auto] at counter
  exact counter

/-- In files signed with the counter `auto` the counters are in the order of the versions,
and the same just when the versions differ in the build at most. -/
theorem sign_auto_counter {otherArgs : SignArgs} {otherContent : Option Bytes} {otherKey otherEnckey : Option Key}
    {otherRandom : Randomness}
    (done : sign digits crypto cbor hex args content key enckey random = .ok file)
    (otherDone : sign digits crypto cbor hex otherArgs otherContent otherKey otherEnckey otherRandom = .ok other)
    (binary : namesHex args.outfile = false) (otherBinary : namesHex otherArgs.outfile = false)
    (auto : args.securityCounter = .auto) (otherAuto : otherArgs.securityCounter = .auto) :
    ∃ version otherVersion counter otherCounter,
      decodeVersion digits args.version = .ok version ∧
      decodeVersion digits otherArgs.version = .ok otherVersion ∧
      (payloads .secCnt (readProtected args.endian file)).map (readCounter args.endian) = [some counter] ∧
      (payloads .secCnt (readProtected otherArgs.endian other)).map (readCounter otherArgs.endian) =
        [some otherCounter] ∧
      (counter < otherCounter ↔ version.Before otherVersion) ∧
      (counter = otherCounter ↔ version.major = otherVersion.major ∧ version.minor = otherVersion.minor ∧
        version.revision = otherVersion.revision) := by
  obtain ⟨version, decoded, fits, read⟩ := sign_counter done binary auto
  obtain ⟨otherVersion, otherDecoded, otherFits, otherRead⟩ := sign_counter otherDone otherBinary otherAuto
  refine ⟨version, otherVersion, _, _, decoded, otherDecoded, read, otherRead, ?_, ?_⟩
  · rw [Int.ofNat_lt, counter_lt_iff fits otherFits]
  · rw [Int.ofNat_inj, counter_eq_iff fits otherFits]

theorem sign_auto_counter_sample : ∃ file other version otherVersion counter otherCounter,
    sampleSign sampleSignArgs none none = .ok file ∧ sampleSign sampleLaterArgs none none = .ok other ∧
    decodeVersion asciiDigits "1.2.3+4".toList = .ok version ∧
    decodeVersion asciiDigits "1.10".toList = .ok otherVersion ∧
    (payloads .secCnt (readProtected .little file)).map (readCounter .little) = [some counter] ∧
    (payloads .secCnt (readProtected .little other)).map (readCounter .little) = [some otherCounter] ∧
    (counter < otherCounter ↔ version.Before otherVersion) := by
  obtain ⟨file, done⟩ := sampleSign_ok.1
  obtain ⟨other, otherDone⟩ := sampleSign_ok.2
  obtain ⟨version, otherVersion, counter, otherCounter, decoded, otherDecoded, read, otherRead, order, _⟩ :=
    sign_auto_counter done otherDone (by decide) (by decide) rfl rfl
  exact ⟨file, other, version, otherVersion, counter, otherCounter, done, otherDone, decoded, otherDecoded, read,
    otherRead, order⟩

end Sign

end Motohs.Imgtool
