import Motohs.Imgtool.Accept

/-! What `verify` says of the images that `create` makes. -/

namespace Motohs.Imgtool

open Lib

/-- The judgements of written records, one after the other. -/
def judgeAll (judge : Nat → Bytes → Except Raised (Option VerifyResult)) : List Record → Except Raised VerifyResult
  | [] => .ok .invalidSignature
  | record :: records => do
    match ← judge record.kind record.payload with
    | some result => pure result
    | none => judgeAll judge records

section Bytes

/-- The bytes in a file from an offset on. -/
theorem take_drop_of_drop {file front rest : Bytes} (here : file.drop off = front ++ rest)
    (length : front.length = size) : (file.drop off).take size = front := by
  rw [here, List.take_left' length]

theorem drop_add_of_drop {file front rest : Bytes} (here : file.drop off = front ++ rest)
    (length : front.length = size) : file.drop (off + size) = rest := by
  rw [← List.drop_drop, here, List.drop_left' length]

end Bytes

/-- The fields of the header, where `verify` looks for them. -/
theorem readHeader_pack {header : Bytes} {magic load headerSize protSize size flags major minor revision build pad : Int}
    (packed : pack native headerFormat
      [magic, load, headerSize, protSize, size, flags, major, minor, revision, build, pad] = some header)
    (rest : Bytes) : readHeader native (header ++ rest) = .ok ⟨magic.toNat, headerSize.toNat, size.toNat,
      ⟨major.toNat, minor.toNat, revision.toNat, build.toNat⟩⟩ := by
  have length : header.length = imageHeaderSize := length_header packed
  rw [imageHeaderSize] at length
  have front : (header ++ rest).take 16 = header.take 16 :=
    List.take_append_of_le_length (by omega)
  have back : ((header ++ rest).drop 20).take 8 = (header.drop 20).take 8 := by
    rw [List.drop_append_of_le_length (by omega), List.take_append_of_le_length (by simp [length])]
  have parts : headerFormat = [.I, .I, .H, .H, .I] ++ ([.I] ++ ([.B, .B, .H, .I] ++ [.I])) := rfl
  have decoded := (unpack_eq_some_iff.mp (unpack_pack packed)).2
  rw [parts, decode_append, decode_append, decode_append, List.drop_drop, List.drop_drop] at decoded
  change _ = [magic.toNat, load.toNat, headerSize.toNat, protSize.toNat, size.toNat] ++ ([flags.toNat] ++
    ([major.toNat, minor.toNat, revision.toNat, build.toNat] ++ [pad.toNat])) at decoded
  obtain ⟨sizes, others⟩ := List.append_inj decoded rfl
  obtain ⟨_, others⟩ := List.append_inj others rfl
  obtain ⟨version, _⟩ := List.append_inj others rfl
  have sizesRead : structUnpack native [.I, .I, .H, .H, .I] (header.take 16) = .ok _ :=
    structUnpack_eq_ok_iff.mpr (unpack_eq_some_iff.mpr ⟨by simp [length, calcsize, Code.size], sizes⟩)
  have versionRead : structUnpack native [.B, .B, .H, .I] ((header.drop 20).take 8) = .ok _ :=
    structUnpack_eq_ok_iff.mpr (unpack_eq_some_iff.mpr ⟨by simp [length, calcsize, Code.size], version⟩)
  rw [readHeader, front, back, sizesRead, versionRead]
  rfl

/-- The header of an area. -/
theorem tlvInfo_writeInfo {b rest : Bytes} (here : b.drop tlvOff = writeInfo native magic total ++ rest)
    (small : magic < 65536) (fits : total < 65536) : tlvInfo native b tlvOff = .ok (magic, total) := by
  have info := take_drop_of_drop here (length_writeInfo native magic total)
  rw [tlvInfo, info, structUnpack_eq_ok_iff.mpr (unpack_info native small fits)]
  rfl

theorem tlvInfo_writeArea {b rest : Bytes} {records : List Record} (present : records ≠ [])
    (here : b.drop tlvOff = writeArea native magic records ++ rest) (small : magic < 65536)
    (fits : (writeArea native magic records).length < 65536) :
    tlvInfo native b tlvOff = .ok (magic, (writeArea native magic records).length) := by
  rw [length_writeArea present] at fits ⊢
  rw [writeArea, if_neg present, List.append_assoc] at here
  exact tlvInfo_writeInfo here small fits

/-- The area with the hash is found, with or without a protected area in front of it. -/
theorem findArea_writeArea {b rest : Bytes} {prot records : List Record} (present : records ≠ [])
    (here : b.drop tlvOff = writeArea native tlvProtInfoMagic prot ++ (writeArea native tlvInfoMagic records ++ rest))
    (protFits : (writeArea native tlvProtInfoMagic prot).length < 65536)
    (fits : (writeArea native tlvInfoMagic records).length < 65536) :
    findArea native b tlvOff = .ok (tlvOff + (writeArea native tlvProtInfoMagic prot).length,
      tlvInfoMagic, (writeArea native tlvInfoMagic records).length) := by
  have area := drop_add_of_drop here rfl
  have found := tlvInfo_writeArea present area (by decide) fits
  unfold findArea
  by_cases empty : prot = []
  · subst empty
    have none : writeArea native tlvProtInfoMagic [] = [] := rfl
    rw [none, List.length_nil, Nat.add_zero] at found ⊢
    rw [found]
    rfl
  · rw [tlvInfo_writeArea empty here (by decide) protFits]
    simp only [bind, Except.bind, if_true, found]
    rfl

section Loop

variable {crypto : Cryptography} {native : ByteOrder} {b rest : Bytes} {key : Option Key}
variable {version : SemiSemVersion} {payload digest : Bytes}

/-- One round of the loop over a written record. -/
theorem verifyTlvs_record {record : Record} (here : b.drop tlvOff = record.write native ++ rest)
    (inside : tlvOff < tlvEnd) :
    verifyTlvs crypto native b key version payload digest tlvEnd tlvOff =
      judgeTlv crypto key version payload digest record.kind record.payload >>= fun
        | some result => pure result
        | none => verifyTlvs crypto native b key version payload digest tlvEnd
            (tlvOff + (tlvSize + record.payload.length)) := by
  have split : b.drop tlvOff =
      encode native [.B, .B, .H] record.header ++ (record.payload ++ rest) := by
    rw [here, Record.write, List.append_assoc]
  have header := take_drop_of_drop split (record.length_header native)
  have value := drop_add_of_drop split (record.length_header native)
  have unpacked := structUnpack_eq_ok_iff.mpr (unpack_pack (record.pack_header native))
  have values : record.header.map Int.toNat = [record.kind, 0, record.payload.length] := by
    simp [Record.header]
  have whole : (b.drop (tlvOff + tlvSize)).take record.payload.length = record.payload := by
    rw [value, List.take_left]
  rw [verifyTlvs, if_pos inside, header, unpacked, values]
  change judgeTlv crypto key version payload digest record.kind
    ((b.drop (tlvOff + tlvSize)).take record.payload.length) >>= _ = _
  exact congrArg (· >>= _) (congrArg (judgeTlv crypto key version payload digest record.kind) whole)

/-- Over written records the loop makes its judgements one after the other. -/
theorem verifyTlvs_writeAll {records : List Record}
    (here : b.drop tlvOff = (Record.codec native).writeAll records ++ rest) :
    verifyTlvs crypto native b key version payload digest
        (tlvOff + ((Record.codec native).writeAll records).length) tlvOff =
      judgeAll (judgeTlv crypto key version payload digest) records := by
  induction records generalizing tlvOff with
  | nil =>
    rw [verifyTlvs, if_neg (by simp [Codec.writeAll])]
    rfl
  | cons record records ih =>
    have written : (Record.codec native).write record = record.write native := rfl
    have size := record.length_write native
    rw [Codec.writeAll_cons, written, List.append_assoc] at here
    have after := drop_add_of_drop here size
    rw [Codec.writeAll_cons, written, List.length_append, size, ← Nat.add_assoc,
      verifyTlvs_record here (by simp only [tlvSize]; omega), ih after]
    rfl

end Loop

/-- `verify` reads a written file back to the records of its area. -/
theorem verify_written {front rest : Bytes} {prot records : List Record} (present : records ≠ [])
    (read : readHeader native (front ++ (writeArea native tlvProtInfoMagic prot ++
      (writeArea native tlvInfoMagic records ++ rest))) = .ok ⟨imageMagic, headerSize, imgSize, version⟩)
    (size : headerSize + imgSize = front.length)
    (protFits : (writeArea native tlvProtInfoMagic prot).length < 65536)
    (fits : (writeArea native tlvInfoMagic records).length < 65536) :
    verify crypto native key (front ++ (writeArea native tlvProtInfoMagic prot ++
        (writeArea native tlvInfoMagic records ++ rest))) =
      judgeAll (judgeTlv crypto key version (front ++ writeArea native tlvProtInfoMagic prot)
        (crypto.sha256 (front ++ writeArea native tlvProtInfoMagic prot))) records := by
  have after : (front ++ (writeArea native tlvProtInfoMagic prot ++
      (writeArea native tlvInfoMagic records ++ rest))).drop front.length = _ := List.drop_left
  have found := findArea_writeArea present after protFits fits
  have area := drop_add_of_drop after rfl
  have length : (writeArea native tlvInfoMagic records).length = _ := length_writeArea present
  have inside : (front ++ (writeArea native tlvProtInfoMagic prot ++
      (writeArea native tlvInfoMagic records ++ rest))).drop
        (front.length + (writeArea native tlvProtInfoMagic prot).length + tlvInfoSize) =
      (Record.codec native).writeAll records ++ rest := by
    refine drop_add_of_drop ?_ (length_writeInfo native tlvInfoMagic
      (tlvInfoSize + ((Record.codec native).writeAll records).length))
    rw [area, writeArea, if_neg present, List.append_assoc]
  have hashed : (front ++ (writeArea native tlvProtInfoMagic prot ++
      (writeArea native tlvInfoMagic records ++ rest))).take
        (front.length + (writeArea native tlvProtInfoMagic prot).length) =
      front ++ writeArea native tlvProtInfoMagic prot := by
    rw [← List.append_assoc, ← List.length_append, List.take_left]
  rw [verify, read]
  simp only [bind, Except.bind, size, found, hashed]
  rw [if_neg (by simp), if_neg (by simp), length, ← Nat.add_assoc, verifyTlvs_writeAll inside]

section Created

variable {crypto : Cryptography} {cbor : Cbor} {key enckey : Option Key} {args : CreateArgs}
variable {random : Randomness} {image next : Image} {layout : Layout}

theorem length_storedPayload (payload : Bytes) :
    (storedPayload crypto random enckey headerSize payload).length = payload.length := by
  cases enckey with
  | none => rfl
  | some enckey =>
    rw [storedPayload, List.length_append, crypto.length_ctr, ← List.length_append, List.take_append_drop]

/-- Encryption leaves the header alone when the header is in the part left out. -/
theorem storedPayload_header {header : Bytes} (length : header.length = imageHeaderSize)
    (sized : imageHeaderSize ≤ headerSize) (body : Bytes) :
    ∃ rest, storedPayload crypto random enckey headerSize (header ++ body) = header ++ rest := by
  cases enckey with
  | none => exact ⟨body, rfl⟩
  | some enckey =>
    have kept : (header ++ body).take headerSize = header ++ body.take (headerSize - header.length) := by
      rw [List.take_append, List.take_of_length_le (by omega)]
    rw [storedPayload, kept, List.append_assoc]
    exact ⟨_, rfl⟩

namespace Created

/-- What is in front of the area with the hash, as it is stored. -/
def stored (crypto : Cryptography) (random : Randomness) (enckey : Option Key) (image : Image)
    (layout : Layout) : Bytes :=
  storedPayload crypto random enckey image.headerSize layout.plain ++ layout.protArea image.endian

variable (created : Created crypto cbor key enckey args random image next layout)

include created

theorem headerSize_le : image.headerSize ≤ (image.prepared enckey).length := by
  obtain ⟨fits, _⟩ := pack_eq_some_iff.mp created.header
  simp [Fits, headerFormat, Image.headerValues] at fits
  omega

/-- The header takes the place of as many bytes. -/
theorem length_plain (sized : imageHeaderSize ≤ image.headerSize) :
    layout.plain.length = (image.prepared enckey).length := by
  have header := length_header created.header
  have whole := created.headerSize_le
  rw [Layout.plain, created.body, List.length_append, List.length_drop, header]
  omega

theorem readHeader (rest : Bytes) : readHeader image.endian (layout.header ++ rest) =
    .ok ⟨imageMagic, image.headerSize, (image.prepared enckey).length - image.headerSize, image.version⟩ := by
  rw [readHeader_pack created.header]
  have size : (((image.prepared enckey).length : Int) - image.headerSize).toNat =
      (image.prepared enckey).length - image.headerSize := by omega
  simp [size]

theorem signs_ne_nil : layout.signs ++ layout.keeps ≠ [] := by
  have signs := created.signs
  generalize layout.signs = records at signs
  cases signs <;> simp

/-- The file from the front: header and payload, and the two areas. -/
theorem readHeader_file (sized : imageHeaderSize ≤ image.headerSize) (trailing : Bytes) :
    Imgtool.readHeader image.endian (next.payload ++ trailing) =
      .ok ⟨imageMagic, image.headerSize, (image.prepared enckey).length - image.headerSize, image.version⟩ := by
  obtain ⟨rest, front⟩ : ∃ rest, storedPayload crypto random enckey image.headerSize layout.plain =
      layout.header ++ rest := storedPayload_header (length_header created.header) sized layout.body
  have read := created.readHeader (rest ++ (layout.protArea image.endian ++
    (layout.area image.endian ++ trailing)))
  rw [← List.append_assoc, ← front] at read
  rw [created.result]
  simpa only [List.append_assoc] using read

/-- Where the header says that the payload ends the areas begin. -/
theorem size_stored (sized : imageHeaderSize ≤ image.headerSize) :
    image.headerSize + ((image.prepared enckey).length - image.headerSize) =
      (storedPayload crypto random enckey image.headerSize layout.plain).length := by
  have whole := created.headerSize_le
  rw [length_storedPayload, created.length_plain sized]
  omega

/-- The area with the hash is where the stored payload and the protected area end. -/
theorem findArea_file (sized : imageHeaderSize ≤ image.headerSize) (trailing : Bytes) :
    findArea image.endian (next.payload ++ trailing)
        (image.headerSize + ((image.prepared enckey).length - image.headerSize)) =
      .ok ((stored crypto random enckey image layout).length, tlvInfoMagic, (layout.area image.endian).length) := by
  have areas : (next.payload ++ trailing).drop
      (image.headerSize + ((image.prepared enckey).length - image.headerSize)) =
        layout.protArea image.endian ++ (layout.area image.endian ++ trailing) := by
    rw [created.size_stored sized, created.result]
    simp only [List.append_assoc, List.drop_left]
  have found := findArea_writeArea created.signs_ne_nil areas created.protFits created.areaFits
  rw [found, stored, List.length_append, created.size_stored sized]
  rfl

/-- What `verify` makes of a created image is what it makes of its records. -/
theorem verify (sized : imageHeaderSize ≤ image.headerSize) (checker : Option Key) (trailing : Bytes) :
    verify crypto image.endian checker (next.payload ++ trailing) =
      judgeAll (judgeTlv crypto checker image.version (stored crypto random enckey image layout)
        (crypto.sha256 (stored crypto random enckey image layout))) (layout.signs ++ layout.keeps) := by
  have read := created.readHeader_file sized trailing
  rw [created.result] at read ⊢
  simp only [List.append_assoc] at read ⊢
  exact verify_written created.signs_ne_nil read (created.size_stored sized) created.protFits created.areaFits

end Created

end Created

section Verdict

variable {crypto : Cryptography} {version : SemiSemVersion} {payload digest : Bytes}

theorem pubTlv_kind (crypto : Cryptography) (key : Key) (publicKeyFormat : PublicKeyFormat) :
    (Image.pubTlv crypto key publicKeyFormat).1 = .keyHash ∨
      (Image.pubTlv crypto key publicKeyFormat).1 = .pubKey := by
  cases publicKeyFormat
  · exact .inl rfl
  · exact .inr rfl

theorem pubTlv_ne_sha256 {key : Key} :
    (Image.pubTlv crypto key publicKeyFormat).1.value ≠ TlvKind.sha256.value := by
  rcases pubTlv_kind crypto key publicKeyFormat with same | same <;> rw [same] <;> decide

theorem pubTlv_ne_sigTlv {key other : Key} (tagged : other.sigTlv = some kind) :
    (Image.pubTlv crypto key publicKeyFormat).1.value ≠ kind.value := by
  unfold Key.sigTlv at tagged
  rcases pubTlv_kind crypto key publicKeyFormat with same | same <;> rw [same] <;>
    split at tagged <;> cases tagged <;> decide

/-- The hash comes first, and nothing after it is a hash. -/
theorem Signs.head (signs : Signs crypto publicKeyFormat payload key records) :
    ∃ sha others, records = sha :: others ∧ sha.Is .sha256 (crypto.sha256 payload) ∧
      ∀ record ∈ others, record.kind ≠ TlvKind.sha256.value := by
  cases signs with
  | unsigned hash => exact ⟨_, [], rfl, hash, by simp⟩
  | signed hash owner _ tagged made =>
    refine ⟨_, _, rfl, hash, ?_⟩
    simp only [List.forall_mem_cons]
    rw [owner.1, made.1]
    exact ⟨pubTlv_ne_sha256, sigTlv_ne_sha256 tagged, by simp⟩

/-- A record that decides nothing is passed over. -/
theorem judgeAll_pass {record : Record} {records : List Record}
    (passed : judgeTlv crypto key version payload digest record.kind record.payload = .ok none) :
    judgeAll (judgeTlv crypto key version payload digest) (record :: records) =
      judgeAll (judgeTlv crypto key version payload digest) records := by
  rw [judgeAll, passed]
  rfl

theorem judgeTlv_right_hash {sha : Record} (hash : sha.Is .sha256 digest) (other : Key) :
    judgeTlv crypto (some other) version payload digest sha.kind sha.payload = .ok none := by
  rw [hash.1, hash.2, judgeTlv_hash, if_pos rfl]
  rfl

theorem judgeTlv_owner {record : Record} {key other : Key} (tagged : other.sigTlv = some kind)
    (owner : record.Is (Image.pubTlv crypto key publicKeyFormat).1
      (Image.pubTlv crypto key publicKeyFormat).2) :
    judgeTlv crypto (some other) version payload digest record.kind record.payload = .ok none := by
  rw [owner.1, judgeTlv_keyed pubTlv_ne_sha256 tagged, if_neg (pubTlv_ne_sigTlv tagged)]

/-- A key of another kind finds no signature. -/
theorem judgeAll_foreign {other : Key} {records : List Record}
    (signs : Signs crypto publicKeyFormat payload key records) (tagged : other.sigTlv = some kind)
    (foreign : ∀ signer, key = some signer → signer.sigTlv ≠ some kind) :
    judgeAll (judgeTlv crypto (some other) version payload (crypto.sha256 payload)) records =
      .ok .invalidSignature := by
  cases signs with
  | unsigned hash => exact judgeAll_pass (judgeTlv_right_hash hash other)
  | @signed signKind _ _ _ signed _ hash owner _ signTagged made =>
    have passed : judgeTlv crypto (some other) version payload (crypto.sha256 payload) signed.kind
        signed.payload = .ok none := by
      rw [made.1, judgeTlv_keyed (sigTlv_ne_sha256 signTagged) tagged, if_neg]
      intro same
      exact foreign _ rfl (TlvKind.value_injective same ▸ signTagged)
    rw [judgeAll_pass (judgeTlv_right_hash hash other), judgeAll_pass (judgeTlv_owner tagged owner),
      judgeAll_pass passed]
    rfl

end Verdict

end Motohs.Imgtool
