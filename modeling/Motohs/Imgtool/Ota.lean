import Motohs.Imgtool.Command

/-! `make ota`: which applications get a signed file, and what is in it. -/

namespace Motohs.Imgtool

open Lib

/-- The command line of `make ota`. -/
def otaTexts : SignTexts where
  version := "1.0.0".toList
  headerSize := "0x20".toList
  slotSize := "0x200000".toList

def otaFlags : SignFlags where
  align := .four
  padHeader := true
  infile := "build/motohs.bin".toList
  outfile := "build/motohs_signed.bin".toList

/-- What is made of it. -/
def otaArgs : SignArgs where
  headerSize := .least
  align := .four
  slotSize := 0x200000
  version := "1.0.0".toList
  padHeader := true
  infile := "build/motohs.bin".toList
  outfile := "build/motohs_signed.bin".toList

/-- The numbers in the header of an application of that size. -/
def otaValues (size : Nat) : List Int := [imageMagic, 0, imageHeaderSize, 0, size, 0, 1, 0, 0, 0, 0]

def otaHeader (size : Nat) : Bytes := encode .little headerFormat (otaValues size)

/-- What the signed file holds: the header, the application and its hash. -/
def otaFile (crypto : Cryptography) (app : Bytes) : Bytes :=
  let plain := otaHeader app.length ++ app
  plain ++ (encode .little [.H, .H, .B, .B, .H] [tlvInfoMagic, 40, TlvKind.sha256.value, 0, 32] ++ crypto.sha256 plain)

/-- What is left of the slot next to the header, the TLVs and the trailer of the bootloader:
32, 40 and 1584 bytes. -/
def otaLimit : Nat := 2095496

section Ota

variable {digits : Digits} {crypto : Cryptography} {cbor : Cbor} {hex : IntelHex} {random : Randomness}
variable {content : Option Bytes}

/-- The hash of an image, as its only record. -/
def hashRecord (crypto : Cryptography) (payload : Bytes) : Record where
  kind := TlvKind.sha256.value
  payload := crypto.sha256 payload
  kindSmall := by decide
  short := by
    rw [crypto.length_sha256]
    decide

theorem eq_hashRecord {record : Record} (hash : record.Is .sha256 (crypto.sha256 payload)) :
    record = hashRecord crypto payload := Record.ext hash.1 hash.2

/-- The area of an image that is neither signed nor encrypted. -/
theorem writeArea_hashRecord (payload : Bytes) : writeArea .little tlvInfoMagic [hashRecord crypto payload] =
    encode .little [.H, .H, .B, .B, .H] [tlvInfoMagic, 40, TlvKind.sha256.value, 0, 32] ++ crypto.sha256 payload := by
  have length := crypto.length_sha256 payload
  rw [writeArea, if_neg (by simp)]
  simp [Codec.writeAll, Record.codec, Record.write, hashRecord, Record.header, writeInfo, encode, length,
    ByteOrder.length_write, tlvInfoSize]

/-- An image for which nothing is to be protected, that is neither signed nor encrypted. -/
structure Bare (args : CreateArgs) (image : Image) : Prop where
  counter : image.securityCounter = none
  bootRecord : args.swType = none
  dependencies : args.dependencies = none
  custom : args.customTlvs = []

theorem Bare.protectedTlvs {args : CreateArgs} {image : Image} (bare : Bare args image) :
    image.protectedTlvs none args = .ok [] := by
  simp only [Image.protectedTlvs, bare.counter, bare.dependencies, bare.custom]
  rfl

theorem Bare.bootRecord_eq {args : CreateArgs} {image : Image} (bare : Bare args image) (signer : Bytes) :
    image.bootRecord cbor args signer = .ok none := by
  rw [Image.bootRecord, bare.bootRecord]

/-- The parts of a bare image. -/
def bareLayout (crypto : Cryptography) (header body : Bytes) : Layout :=
  ⟨none, header, body, [], [hashRecord crypto (header ++ body)], []⟩

theorem Bare.layout_eq {args : CreateArgs} {image next : Image} (bare : Bare args image)
    (created : Created crypto cbor none none args random image next layout) :
    layout = bareLayout crypto layout.header (image.payload.drop imageHeaderSize) := by
  obtain ⟨bootRecord, _, body, made, signs, keeps, _, _, _, _⟩ := created
  obtain ⟨record, header, _, prot, signsAre, keepsAre⟩ := layout
  rw [bare.bootRecord_eq] at bootRecord
  cases bootRecord
  rw [bare.protectedTlvs] at made
  cases List.map_eq_nil_iff.mp (Except.ok.inj made).symm
  cases keeps
  cases body
  cases signs with
  | unsigned hash =>
    rw [eq_hashRecord hash]
    simp [bareLayout, Layout.hashed, Layout.plain, Layout.protArea, writeArea, Image.prepared]

/-- All that `create` puts into a bare image is header and hash. -/
theorem create_bare_iff {args : CreateArgs} {image next : Image} (bare : Bare args image) :
    image.create crypto cbor none none args random = .ok next ↔ ∃ header,
      pack image.endian headerFormat (image.headerValues false 0) = some header ∧
      next = { image with
        enckey := none
        payload := header ++ image.payload.drop imageHeaderSize ++
          writeArea image.endian tlvInfoMagic [hashRecord crypto (header ++ image.payload.drop imageHeaderSize)] } ∧
      next.checkTrailer = .ok () := by
  rw [create_eq_ok_iff]
  constructor
  · rintro ⟨layout, created⟩
    have parts := bare.layout_eq created
    have packed := created.header
    have result := created.result
    rw [parts] at packed result
    refine ⟨layout.header, packed, ?_, created.room⟩
    simpa [bareLayout, storedPayload, Layout.plain, Layout.protArea, Layout.area, writeArea, keptLen] using result
  · rintro ⟨header, packed, rfl, room⟩
    have area : (writeArea image.endian tlvInfoMagic
        [hashRecord crypto (header ++ image.payload.drop imageHeaderSize)]).length < 65536 := by
      rw [length_writeArea (by simp), Codec.writeAll_cons, List.length_append]
      change tlvInfoSize + (((hashRecord crypto _).write image.endian).length + 0) < _
      rw [Record.length_write, hashRecord, crypto.length_sha256]
      decide
    exact ⟨bareLayout crypto header (image.payload.drop imageHeaderSize), {
      bootRecord := bare.bootRecord_eq _
      header := packed
      body := rfl
      prot := bare.protectedTlvs
      signs := by
        simpa [bareLayout, Layout.hashed, Layout.plain, Layout.protArea, writeArea] using
          .unsigned ⟨rfl, rfl⟩
      keeps := .plain
      protFits := by simp [bareLayout, Layout.protArea, writeArea]
      areaFits := area
      room := room
      result := by simp [bareLayout, storedPayload, Layout.plain, Layout.protArea, Layout.area, writeArea, keptLen] }⟩

def otaVersion : SemiSemVersion := ⟨1, 0, 0, 0⟩

theorem decodeVersion_ota (digits : Digits) : decodeVersion digits otaArgs.version = .ok otaVersion := by
  have numerals : ∀ part ∈ [decimal 1, decimal 0, decimal 0], Numeral digits part := by simp [numeral_decimal]
  have decoded := @decodeVersion_parts digits ⟨_, _, numerals, by simp⟩ [] rfl
  have version : Parts.version ⟨decimal 1, [decimal 0, decimal 0], numerals, by simp⟩ = otaVersion := by
    simp [Parts.version, digits.int_decimal, otaVersion]
  rw [version] at decoded
  exact decoded

theorem convert_ota (digits : Digits) : otaTexts.convert digits otaFlags = .ok otaArgs := by
  have version : validateVersion digits otaTexts.version = .ok otaTexts.version := by
    rw [validateVersion, show decodeVersion digits otaTexts.version = .ok otaVersion from decodeVersion_ota digits]
  simp only [SignTexts.convert, version]
  rfl

/-- The application with room for its header. -/
def otaImage (app : Bytes) : Image :=
  { Image.fresh otaVersion otaArgs with payload := List.replicate imageHeaderSize 0xff ++ app }

theorem load_ota (hex : IntelHex) (app : Bytes) :
    (Image.fresh otaVersion otaArgs).load hex otaArgs.infile (some app) = .ok (otaImage app) := by
  have plain : namesHex otaArgs.infile = false := by decide
  simp only [Image.load, Image.readPayload, plain]
  rfl

theorem bare_ota (app : Bytes) : Bare (otaArgs.createArgs []) (otaImage app) := ⟨rfl, rfl, rfl, rfl⟩

theorem headerValues_ota (app : Bytes) : (otaImage app).headerValues false 0 = otaValues app.length := by
  have size : ((otaImage app).payload.length : Int) - (otaImage app).headerSize = app.length := by
    have length : (otaImage app).payload.length = imageHeaderSize + app.length := by
      rw [otaImage, List.length_append, List.length_replicate]
    have header : (otaImage app).headerSize = imageHeaderSize := rfl
    rw [length, header]
    omega
  have flags : (otaImage app).flags false = 0 := by
    simp [Image.flags, otaImage, Image.fresh, otaArgs, truthy]
  have load : orElse (otaImage app).romFixed (otaImage app).loadAddr = 0 := by
    simp [orElse, otaImage, Image.fresh, otaArgs, truthy]
  rw [Image.headerValues, size, flags, load]
  rfl

theorem fits_ota (size : Nat) : Fits headerFormat (otaValues size) ↔ size < 2 ^ 32 := by
  simp [Fits, headerFormat, otaValues, imageMagic, imageHeaderSize]

theorem length_otaFile (app : Bytes) (small : app.length < 2 ^ 32) :
    (otaFile crypto app).length = imageHeaderSize + app.length + 40 := by
  have header : (otaHeader app.length).length = imageHeaderSize := length_encode ((fits_ota app.length).mpr small)
  simp [otaFile, header, crypto.length_sha256, encode, ByteOrder.length_write]
  omega

/-- The signed application, as an image. -/
def otaSigned (crypto : Cryptography) (app : Bytes) : Image :=
  { otaImage app with payload := otaFile crypto app }

theorem checkTrailer_ota {app : Bytes} (small : app.length < 2 ^ 32) :
    (otaSigned crypto app).checkTrailer = .ok () ↔ app.length ≤ otaLimit := by
  have trailer : (otaSigned crypto app).trailerSize = .ok 1584 := by
    simp [Image.trailerSize, otaSigned, otaImage, Image.fresh, otaArgs, Align.four, defaultMaxSectors, maxAlign]
  have length : (otaSigned crypto app).payload.length = imageHeaderSize + app.length + 40 := length_otaFile app small
  have slot : (otaSigned crypto app).slotSize = 0x200000 := rfl
  rw [Image.checkTrailer_eq_ok_iff (by rw [slot]; omega), trailer, slot, length]
  simp only [Except.ok.injEq, exists_eq_left', imageHeaderSize, otaLimit]
  omega

/-- What `create` makes of the application. -/
theorem create_ota_iff {app : Bytes} {next : Image} :
    (otaImage app).create crypto cbor none none (otaArgs.createArgs []) random = .ok next ↔
      app.length ≤ otaLimit ∧ next = otaSigned crypto app := by
  have body : (otaImage app).payload.drop imageHeaderSize = app := List.drop_left' List.length_replicate
  have result : ({ otaImage app with
      enckey := none
      payload := otaHeader app.length ++ app ++ writeArea (otaImage app).endian tlvInfoMagic
        [hashRecord crypto (otaHeader app.length ++ app)] } : Image) = otaSigned crypto app := by
    have endian : (otaImage app).endian = .little := rfl
    rw [endian, writeArea_hashRecord]
    rfl
  rw [create_bare_iff (bare_ota app), headerValues_ota, body]
  constructor
  · rintro ⟨header, packed, rfl, fits⟩
    obtain ⟨size, rfl⟩ := pack_eq_some_iff.mp packed
    have endian : (otaImage app).endian = .little := rfl
    rw [endian] at fits ⊢
    change Image.checkTrailer { otaImage app with
      enckey := none
      payload := otaHeader app.length ++ app ++ writeArea (otaImage app).endian tlvInfoMagic
        [hashRecord crypto (otaHeader app.length ++ app)] } = _ at fits
    rw [result] at fits
    exact ⟨(checkTrailer_ota ((fits_ota _).mp size)).mp fits, result⟩
  · rintro ⟨small, rfl⟩
    have size : app.length < 2 ^ 32 := by
      unfold otaLimit at small
      omega
    exact ⟨otaHeader app.length, pack_eq_some_iff.mpr ⟨(fits_ota _).mpr size, rfl⟩, result.symm,
      (checkTrailer_ota size).mpr small⟩

theorem save_ota (hex : IntelHex) (app : Bytes) :
    (otaSigned crypto app).save hex otaArgs.outfile otaArgs.hexAddr = .ok (otaFile crypto app) := by
  have plain : namesHex otaArgs.outfile = false := by decide
  rw [Image.save, plain]
  rfl

theorem sign_ota_iff : sign digits crypto cbor hex otaArgs content none none random = .ok file ↔
    ∃ app, content = some app ∧ app.length ≤ otaLimit ∧ file = otaFile crypto app := by
  rw [sign_eq_ok_iff]
  constructor
  · rintro ⟨version, tlvs, first, loaded, next, signed⟩
    have decoded := signed.decoded
    rw [decodeVersion_ota] at decoded
    cases decoded
    have custom := signed.custom
    cases custom
    have load := signed.load
    rw [signed.first_eq] at load
    obtain ⟨app, rfl, _⟩ := Image.load_bin (by decide) load
    rw [load_ota] at load
    cases load
    obtain ⟨small, rfl⟩ := create_ota_iff.mp signed.create
    have save := signed.save
    rw [save_ota] at save
    exact ⟨app, rfl, small, (Except.ok.inj save).symm⟩
  · rintro ⟨app, rfl, small, rfl⟩
    exact ⟨otaVersion, [], _, otaImage app, otaSigned crypto app, {
      decoded := decodeVersion_ota digits
      new := rfl
      load := load_ota hex app
      kinds := rfl
      custom := rfl
      create := create_ota_iff.mpr ⟨small, rfl⟩
      save := save_ota hex app }⟩

/-- `make ota` writes a file for every application that leaves room for the trailer, and
for no other. The file holds the application between its header and its hash. -/
theorem ota_eq_ok_iff :
    signCommand digits crypto cbor hex otaTexts otaFlags content none none random = .ok file ↔
      ∃ app, content = some app ∧ app.length ≤ otaLimit ∧ file = otaFile crypto app := by
  rw [signCommand, convert_ota]
  exact sign_ota_iff

end Ota

end Motohs.Imgtool
