import Motohs.Imgtool.Authentic
import Motohs.Imgtool.Slot

/-! What ends up in flash: the files that `create` and `save` make together. -/

namespace Motohs.Imgtool

open Lib

section Sample

/-- Bytes that are put into a list of addresses. -/
def placed : Bytes → Int → List (Int × UInt8) → List (Int × UInt8)
  | [], _, object => object
  | byte :: rest, start, object => (start, byte) :: placed rest (start + 1) object

theorem lookup_placed (bytes : Bytes) (start : Int) (object : List (Int × UInt8)) (address : Int) :
    (placed bytes start object).lookup address =
      if start ≤ address ∧ address < start + bytes.length then bytes[(address - start).toNat]?
      else object.lookup address := by
  induction bytes generalizing start with
  | nil => simp [placed]
  | cons byte rest ih =>
    rw [placed, List.lookup_cons, ih]
    by_cases first : address = start
    · subst first
      simp
    · have index (late : start ≤ address) : (address - start).toNat = (address - (start + 1)).toNat + 1 := by
        omega
      simp only [beq_false_of_ne first, List.length_cons]
      by_cases inside : start + 1 ≤ address ∧ address < start + 1 + rest.length
      · rw [if_pos inside, if_pos (by omega), index (by omega), List.getElem?_cons_succ]
      · rw [if_neg inside, if_neg (by omega)]

def sampleInput : List (Int × UInt8) := placed [0x00, 0xbf, 0xfe, 0xe7] 0x8020 []

def sampleLine (line : String) : Bytes := line.toList.map (fun char => UInt8.ofNat char.toNat) ++ [0x0a]

def sampleInputText : Bytes := sampleLine ":0480200000BFFEE7B8" ++ sampleLine ":00000001FF"

def sampleOutput : List (Int × UInt8) :=
  placed (List.replicate 16 0xff ++ bootMagic) 0x8050 <| placed
    (sampleNumber 36 0x3db8f3960000000020000000040000000000000001020300040000000000000000bffee7 ++ sampleNumber 8 0x0769280010002000 ++
      sampleNumber 32 0x1bb83abfc64015b6b6604515ad4b14d731e513c54ccf29849c445f7c71efe89b) 0x8000 []

def sampleOutputText : Bytes :=
  sampleLine ":108000003DB8F396000000002000000004000000CE" ++
    (sampleLine ":108010000000000001020300040000000000000056" ++
    (sampleLine ":1080200000BFFEE707692800100020001BB83ABF18" ++
    (sampleLine ":10803000C64015B6B6604515AD4B14D731E513C52E" ++
    (sampleLine ":0C8040004CCF29849C445F7C71EFE89BCE" ++
    (sampleLine ":10805000FFFFFFFFFFFFFFFFFFFFFFFFFFFFFFFF30" ++
    (sampleLine ":1080600077C295F360D2EF7F3552500F2CB67980EE" ++ sampleLine ":00000001FF"))))))

/-- The first and the last address of an object. -/
def addressSpan : List (Int × UInt8) → Option (Int × Int)
  | [] => none
  | (address, _) :: rest =>
    match addressSpan rest with
    | none => some (address, address)
    | some (first, last) =>
      some (if address ≤ first then address else first, if last ≤ address then address else last)

theorem addressSpan_of_lookup {object : List (Int × UInt8)} (here : object.lookup address = some byte) :
    ∃ first last, addressSpan object = some (first, last) ∧ first ≤ address ∧ address ≤ last := by
  induction object with
  | nil => cases here
  | cons entry rest ih =>
    obtain ⟨other, value⟩ := entry
    rw [List.lookup_cons] at here
    by_cases same : address = other
    · subst same
      cases spanned : addressSpan rest with
      | none => exact ⟨address, address, by simp [addressSpan, spanned], by omega, by omega⟩
      | some pair => exact ⟨_, _, by simp only [addressSpan, spanned]; rfl, by grind, by grind⟩
    · rw [beq_false_of_ne same] at here
      obtain ⟨first, last, spanned, above, below⟩ := ih here
      exact ⟨_, _, by simp only [addressSpan, spanned]; rfl, by grind, by grind⟩

/-- The package on the files of the examples. -/
@[reducible] def sampleHex : IntelHex where
  Object := List (Int × UInt8)
  new := []
  find object address := object.lookup address
  find_new _ := rfl
  frombytes bytes offset object := placed bytes offset object
  find_frombytes := lookup_placed
  puts start bytes object := placed bytes start object
  find_puts := lookup_placed
  minaddr object := (addressSpan object).map Prod.fst
  tobinarray object :=
    match addressSpan object with
    | some (first, last) => (List.range (last - first + 1).toNat).map fun (index : Nat) =>
        (object.lookup (first + index)).getD 0xff
    | none => []
  find_tobinarray object address byte here := by
    obtain ⟨first, last, spanned, above, below⟩ := addressSpan_of_lookup here
    have index : first + ((address - first).toNat : Int) = address := by omega
    refine ⟨first, by rw [spanned]; rfl, above, ?_⟩
    rw [spanned, List.getElem?_map, List.getElem?_range (by omega), Option.map_some, index, here]
    rfl
  parse text :=
    if text = sampleInputText then some sampleInput
    else if text = sampleOutputText then some sampleOutput else none
  tofile object := if object = sampleOutput then some sampleOutputText else none
  find_parse object text written := by
    split at written
    · rename_i same
      rw [← Option.some.inj written, same]
      exact ⟨sampleOutput, by decide +kernel, fun _ => rfl⟩
    · cases written

def sampleFirst : Image :=
  { sampleImage with pad := true, overwriteOnly := true, slotSize := 112, payload := [] }

def sampleLoaded : Image :=
  { sampleFirst with baseAddr := some 0x8000, payload := sampleImage.payload }

def sampleCreated : Except Raised Image :=
  sampleLoaded.create sampleCryptography sampleCbor none none sampleArgs sampleRandomness

theorem sampleCreated_object :
    sampleCreated.bind (fun next => next.hexObject sampleHex 0x8000) = .ok sampleOutput := by
  decide +kernel

theorem sampleCreated_ok : ∃ next, sampleCreated = .ok next ∧
    next.saveHex sampleHex none = .ok sampleOutputText := by
  obtain ⟨next, made, object⟩ := bind_eq_ok_iff.mp sampleCreated_object
  obtain ⟨layout, created⟩ := create_eq_ok_iff.mp made
  have based : next.baseAddr = some 0x8000 := by rw [created.result]; rfl
  have written : sampleHex.tofile sampleOutput = some sampleOutputText := by simp
  exact ⟨next, made, Image.saveHex_eq_ok_iff.mpr ⟨_, _, based, object, written⟩⟩

end Sample

section Save

variable {crypto : Cryptography} {cbor : Cbor} {key enckey : Option Key} {args : CreateArgs}
variable {random : Randomness} {image next : Image} {hex : IntelHex}

/-- Nothing that `save` looks at is changed by `create`, the payload and the key apart. -/
theorem Created.kept (created : Created crypto cbor key enckey args random image next layout) :
    next.slotSize = image.slotSize ∧ next.pad = image.pad ∧ next.maxSectors = image.maxSectors ∧
      next.erasedVal = image.erasedVal ∧ next.baseAddr = image.baseAddr ∧ next.imageOk = image.imageOk := by
  rw [created.result]
  exact ⟨rfl, rfl, rfl, rfl, rfl, rfl⟩

/-- A padded image fills its slot. Behind image and TLVs the flash is left erased up to
the magic number, but for the byte that marks a confirmed image. -/
theorem saveBin_create (made : image.create crypto cbor key enckey args random = .ok next)
    (slot : 0 < image.slotSize) (padded : image.pad) (sectors : 0 ≤ image.maxSectors.getD defaultMaxSectors) :
    ∃ gap, next.saveBin = .ok (next.payload ++ (List.replicate gap image.erasedVal ++
        (image.imageOk :: List.replicate 7 image.erasedVal ++ bootMagic))) ∧
      ((next.payload.length + gap + 24 : Nat) : Int) = image.slotSize := by
  obtain ⟨layout, created⟩ := create_eq_ok_iff.mp made
  obtain ⟨slotSize, pad, maxSectors, erasedVal, _, imageOk⟩ := created.kept
  have saved := Image.saveBin_padded created.room (slotSize ▸ slot) (pad ▸ padded) (maxSectors ▸ sectors)
  rw [slotSize, erasedVal, imageOk] at saved
  exact saved

theorem saveBin_create_sample : ∃ next gap, sampleCreated = .ok next ∧
    next.saveBin = .ok (next.payload ++ (List.replicate gap 0xff ++
      (0xff :: List.replicate 7 0xff ++ bootMagic))) ∧ ((next.payload.length + gap + 24 : Nat) : Int) = 112 := by
  obtain ⟨next, made, _⟩ := sampleCreated_ok
  obtain ⟨gap, saved, filled⟩ := saveBin_create made (by decide) rfl (by decide)
  exact ⟨next, gap, made, saved, filled⟩

end Save

end Motohs.Imgtool
