import Motohs.Imgtool.Layout

/-! The files that images come from and go to, and the slot that an image is padded to. -/

namespace Motohs.Imgtool

open Lib

/-- The package `intelhex`, with what it is documented to do. An object maps addresses to
bytes. -/
structure IntelHex where
  Object : Type
  new : Object
  find : Object → Int → Option UInt8
  find_new : ∀ address, find new address = none
  frombytes : Bytes → Int → Object → Object
  find_frombytes : ∀ bytes offset object address, find (frombytes bytes offset object) address =
    if offset ≤ address ∧ address < offset + bytes.length then bytes[(address - offset).toNat]?
    else find object address
  puts : Int → Bytes → Object → Object
  find_puts : ∀ bytes start object address, find (puts start bytes object) address =
    if start ≤ address ∧ address < start + bytes.length then bytes[(address - start).toNat]?
    else find object address
  minaddr : Object → Option Int
  /-- The bytes from the first address to the last, gaps filled. -/
  tobinarray : Object → Bytes
  find_tobinarray : ∀ object address byte, find object address = some byte →
    ∃ base, minaddr object = some base ∧ base ≤ address ∧
      (tobinarray object)[(address - base).toNat]? = some byte
  parse : Bytes → Option Object
  tofile : Object → Option Bytes
  find_parse : ∀ object text, tofile object = some text →
    ∃ read, parse text = some read ∧ ∀ address, find read address = find object address

/-- `os.path.splitext(path)[1][1:]`. The dots that a name begins with do not count. -/
def extension (path : List Char) : List Char :=
  let name := (path.reverse.takeWhile (· ≠ '/')).reverse
  let bare := name.dropWhile (· = '.')
  if '.' ∈ bare then (bare.reverse.takeWhile (· ≠ '.')).reverse else []

def intelHexExt : List Char := "hex".toList

/-- No other letter becomes one of `hex` in lower case. -/
def namesHex (path : List Char) : Bool := (extension path).map Char.toLower = intelHexExt

/-- `bytes[-distance] = value` -/
def setFromEnd (bytes : Bytes) (distance : Nat) (value : UInt8) : Except Raised Bytes :=
  if distance ≤ bytes.length then .ok (bytes.set (bytes.length - distance) value) else .error .indexError

namespace Image

variable (hex : IntelHex)

def checkHeader (image : Image) : Except Raised Unit :=
  if 0 < image.headerSize ∧ !image.padHeader ∧ (image.payload.take image.headerSize).any (· ≠ 0) then
    .error (.usageError "Header padding was not requested and image does not start with zeros".toList)
  else .ok ()

/-- The payload of a file and the address it begins at. -/
def readPayload (path : List Char) (content : Option Bytes) : Except Raised (Bytes × Option Int) :=
  match content with
  | none => .error (.usageError "Input file not found".toList)
  | some content =>
    if namesHex path then
      match hex.parse content with
      | none => .error .hexError
      | some ih => .ok (hex.tobinarray ih, hex.minaddr ih)
    else .ok (content, none)

/-- Room for the header in front of the payload. An address that is 0 is not moved. -/
def makeRoom (image : Image) : Image :=
  if image.padHeader ∧ 0 < image.headerSize then
    { image with
      baseAddr := if truthy image.baseAddr then image.baseAddr.map (· - image.headerSize) else image.baseAddr
      payload := List.replicate image.headerSize image.erasedVal ++ image.payload }
  else image

/-- `content` is what the file at `path` has, if there is one. -/
def load (path : List Char) (content : Option Bytes) (image : Image) : Except Raised Image := do
  let (payload, baseAddr) ← readPayload hex path content
  let image := makeRoom { image with payload, baseAddr := if namesHex path then baseAddr else image.baseAddr }
  image.checkHeader
  pure image

/-- `[erased_val] * count` -/
def erased (count : Int) (image : Image) : Bytes := List.replicate count.toNat image.erasedVal

/-- Whether the image is marked as confirmed. -/
def marked (image : Image) : Bool := image.confirm && !image.overwriteOnly

/-- The padding with `image_ok` set, where it is to be. -/
def mark (padding : Bytes) (image : Image) : Except Raised Bytes :=
  if image.marked then setFromEnd padding maxAlign 0x01 else .ok padding

def padTo (size : Int) (image : Image) : Except Raised Image := do
  let tsize ← image.trailerSize
  let padding := size - (image.payload.length + tsize)
  let pbytes := image.erased padding ++ image.erased (tsize - bootMagic.length)
  let pbytes ← image.mark pbytes
  pure { image with payload := image.payload ++ (pbytes ++ bootMagic) }

/-- The trailer as it is written next to the image in a file with addresses. -/
def hexTrailer (image : Image) : Except Raised (Int × Bytes) := do
  let trailerSize ← image.trailerSize
  let padding ← image.mark (image.erased (trailerSize - bootMagic.length))
  pure (trailerSize, padding ++ bootMagic)

/-- The object that is written to a file with addresses. -/
def hexObject (base : Int) (image : Image) : Except Raised hex.Object := do
  let h := hex.frombytes image.payload base hex.new
  if image.pad then do
    let (trailerSize, trailer) ← image.hexTrailer
    pure (hex.puts (base + image.slotSize - trailerSize) trailer h)
  else pure h

def saveHex (hexAddr : Option Int) (image : Image) : Except Raised Bytes :=
  match hexAddr.or image.baseAddr with
  | none => .error (.usageError "No address exists in input file neither was it provided by user".toList)
  | some base => do
    let h ← image.hexObject hex base
    match hex.tofile h with
    | some text => .ok text
    | none => .error .hexError

def saveBin (image : Image) : Except Raised Bytes := do
  let image ← (if image.pad then image.padTo image.slotSize else .ok image)
  pure image.payload

/-- What is written to the file at `path`. -/
def save (path : List Char) (hexAddr : Option Int) (image : Image) : Except Raised Bytes :=
  if namesHex path then image.saveHex hex hexAddr else image.saveBin

/-- The byte that tells whether the image is confirmed. -/
def imageOk (image : Image) : UInt8 := if image.marked then 0x01 else image.erasedVal

/-- What the slot ends with: `image_ok`, 8 bytes in front of the magic. -/
def trailer (tsize : Int) (image : Image) : Bytes :=
  image.erased (tsize - 24) ++ (image.imageOk :: List.replicate 7 image.erasedVal ++ bootMagic)

variable {hex : IntelHex} {image next : Image} {size tsize : Int}

theorem length_erased (count : Int) (image : Image) : (image.erased count).length = count.toNat :=
  List.length_replicate

/-- The trailer has room for the magic and what is kept in front of it. -/
theorem le_trailerSize (found : image.trailerSize = .ok tsize)
    (sectors : 0 ≤ image.maxSectors.getD defaultMaxSectors) : 32 ≤ tsize := by
  unfold trailerSize at found
  dsimp only at found
  split at found
  · cases found
    decide
  · split at found
    · cases found
    · have blocks : 0 ≤ ((image.enctlvLen : Int) - 1).tdiv maxAlign + 1 := by
        rcases Nat.eq_zero_or_pos image.enctlvLen with none | some
        · rw [none]
          decide
        · have quotient : 0 ≤ ((image.enctlvLen : Int) - 1).tdiv maxAlign :=
            Int.tdiv_nonneg (by omega) (by decide)
          omega
      have status : 0 ≤ image.maxSectors.getD defaultMaxSectors * 3 * image.align :=
        Int.mul_nonneg (by omega) (by omega)
      cases found
      simp only [maxAlign] at blocks ⊢
      split <;> (try split) <;> omega

theorem setFromEnd_append {front back : Bytes} (inside : distance ≤ back.length) :
    setFromEnd (front ++ back) distance value = (setFromEnd back distance value).map (front ++ ·) := by
  unfold setFromEnd
  rw [if_pos inside, if_pos (by simp; omega), List.length_append, List.set_append_right _ _ (by omega)]
  have position : front.length + back.length - distance - front.length = back.length - distance := by omega
  rw [position]
  rfl

theorem mark_append {front back : Bytes} (inside : maxAlign ≤ back.length) :
    image.mark (front ++ back) = (image.mark back).map (front ++ ·) := by
  unfold mark
  split
  · exact setFromEnd_append inside
  · rfl

/-- Of the erased bytes the last but seven is `image_ok`. -/
theorem mark_erased (room : 24 ≤ tsize) : image.mark (image.erased (tsize - bootMagic.length)) =
    .ok (image.erased (tsize - 24) ++ (image.imageOk :: List.replicate 7 image.erasedVal)) := by
  have magic : (bootMagic.length : Int) = 16 := rfl
  have split : image.erased (tsize - 16) = image.erased (tsize - 24) ++ List.replicate 8 image.erasedVal := by
    have count : (tsize - 16).toNat = (tsize - 24).toNat + 8 := by omega
    rw [erased, count, List.replicate_add]
    rfl
  rw [magic, split, mark_append (by simp [maxAlign])]
  unfold mark imageOk
  cases image.marked <;> rfl

/-- Padded to the slot, the image is followed by erased flash and the same trailer. -/
theorem padTo_eq (found : image.trailerSize = .ok tsize) (room : 24 ≤ tsize) :
    image.padTo size = .ok { image with
      payload := image.payload ++ (image.erased (size - (image.payload.length + tsize)) ++
        image.trailer tsize) } := by
  have magic : (bootMagic.length : Int) = 16 := rfl
  have inside : maxAlign ≤ (image.erased (tsize - bootMagic.length)).length := by
    rw [length_erased, magic, maxAlign]
    omega
  unfold padTo
  simp [found, mark_append inside, mark_erased room, bind, Except.bind, pure, Except.pure, Except.map, trailer]

/-- In a slot of some size, the check is that image and trailer fit. -/
theorem checkTrailer_eq_ok_iff (slot : 0 < image.slotSize) : image.checkTrailer = .ok () ↔
    ∃ tsize, image.trailerSize = .ok tsize ∧ image.payload.length + tsize ≤ image.slotSize := by
  unfold checkTrailer
  rw [if_pos slot, bind_eq_ok_iff]
  apply exists_congr
  intro tsize
  apply and_congr_right'
  split
  · exact iff_of_false (by simp) (by omega)
  · exact iff_of_true rfl (by omega)

/-- The image and the trailer fit into the slot. -/
theorem fits_of_checkTrailer (fits : image.checkTrailer = .ok ()) (slot : 0 < image.slotSize) :
    ∃ tsize, image.trailerSize = .ok tsize ∧ image.payload.length + tsize ≤ image.slotSize :=
  (checkTrailer_eq_ok_iff slot).mp fits

/-- What is saved begins with the image, padded or not. -/
theorem saveBin_append (saved : image.saveBin = .ok file) : ∃ trailing, file = image.payload ++ trailing := by
  unfold saveBin at saved
  obtain ⟨padded, same, done⟩ := bind_eq_ok_iff.mp saved
  cases done
  split at same
  · obtain ⟨_, _, same⟩ := bind_eq_ok_iff.mp same
    obtain ⟨_, _, same⟩ := bind_eq_ok_iff.mp same
    cases same
    exact ⟨_, rfl⟩
  · cases same
    exact ⟨[], (List.append_nil _).symm⟩

/-- A padded image fills the slot: image, erased flash, `image_ok` and the magic. -/
theorem saveBin_padded (fits : image.checkTrailer = .ok ()) (slot : 0 < image.slotSize)
    (padded : image.pad) (sectors : 0 ≤ image.maxSectors.getD defaultMaxSectors) :
    ∃ gap, image.saveBin = .ok (image.payload ++ (List.replicate gap image.erasedVal ++
        (image.imageOk :: List.replicate 7 image.erasedVal ++ bootMagic))) ∧
      ((image.payload.length + gap + 24 : Nat) : Int) = image.slotSize := by
  obtain ⟨tsize, found, inside⟩ := fits_of_checkTrailer fits slot
  have room := le_trailerSize found sectors
  refine ⟨(image.slotSize - (image.payload.length + tsize)).toNat + (tsize - 24).toNat, ?_, by omega⟩
  unfold saveBin
  rw [if_pos padded, padTo_eq found (by omega), List.replicate_add]
  simp only [bind, Except.bind, pure, Except.pure, trailer, erased, List.append_assoc]

theorem saveHex_eq_ok_iff : image.saveHex hex hexAddr = .ok text ↔
    ∃ base object, hexAddr.or image.baseAddr = some base ∧ image.hexObject hex base = .ok object ∧
      hex.tofile object = some text := by
  unfold saveHex
  cases hexAddr.or image.baseAddr with
  | none => simp
  | some base =>
    simp only [bind_eq_ok_iff, Option.some.injEq, exists_and_left, exists_eq_left']
    apply exists_congr
    intro object
    cases hex.tofile object <;> simp

/-- The room that is made for the header. -/
def headerRoom (image : Image) : Nat := if image.padHeader then image.headerSize else 0

theorem makeRoom_payload (image : Image) :
    image.makeRoom.payload = List.replicate image.headerRoom image.erasedVal ++ image.payload := by
  unfold makeRoom headerRoom
  cases image.padHeader with
  | false => simp
  | true =>
    rcases Nat.eq_zero_or_pos image.headerSize with none | some
    · simp [none]
    · simp [some]

/-- What `load` makes of any other file. -/
theorem load_bin (plain : namesHex path = false) (loaded : image.load hex path content = .ok next) :
    ∃ app, content = some app ∧ next.payload = List.replicate image.headerRoom image.erasedVal ++ app := by
  obtain ⟨⟨payload, baseAddr⟩, read, rest⟩ := bind_eq_ok_iff.mp loaded
  obtain ⟨_, _, done⟩ := bind_eq_ok_iff.mp rest
  cases content with
  | none => cases read
  | some app =>
    simp only [readPayload, plain] at read
    cases done
    cases read
    exact ⟨_, rfl, makeRoom_payload _⟩

end Image

end Motohs.Imgtool
