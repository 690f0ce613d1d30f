import Motohs.Lib.Pack

/-! Items written one after the other and read back from the front. -/

namespace Lib

/-- How one item is written, and read back in front of whatever follows. Nothing but
what is written of an item is read as one. -/
structure Codec (Item : Type u) where
  write : Item → Bytes
  read : Bytes → Option (Item × Bytes)
  nonempty : ∀ item, write item ≠ []
  read_write : ∀ item rest, read (write item ++ rest) = some (item, rest)
  write_read : ∀ bytes item rest, read bytes = some (item, rest) → bytes = write item ++ rest

namespace Codec

variable {Item : Type u} (codec : Codec Item)

def writeAll (items : List Item) : Bytes := items.flatMap codec.write

/-- The items the bytes are made of, at most so many. -/
def readUpTo : Nat → Bytes → Option (List Item)
  | _, [] => some []
  | 0, _ :: _ => none
  | count + 1, first :: rest =>
    (codec.read (first :: rest)).bind fun (item, rest) => (readUpTo count rest).map (item :: ·)

/-- The items the bytes are made of. -/
def readAll (bytes : Bytes) : Option (List Item) := codec.readUpTo bytes.length bytes

theorem writeAll_cons (item : Item) (items : List Item) :
    codec.writeAll (item :: items) = codec.write item ++ codec.writeAll items := List.flatMap_cons

theorem writeAll_append (front back : List Item) :
    codec.writeAll (front ++ back) = codec.writeAll front ++ codec.writeAll back := List.flatMap_append

theorem length_le_writeAll (items : List Item) : items.length ≤ (codec.writeAll items).length := by
  induction items with
  | nil => exact Nat.zero_le _
  | cons item items ih =>
    have some := List.length_pos_of_ne_nil (codec.nonempty item)
    rw [writeAll_cons, List.length_append, List.length_cons]
    omega

theorem length_writeAll_le (bounded : ∀ item ∈ items, (codec.write item).length ≤ size) :
    (codec.writeAll items).length ≤ size * items.length := by
  induction items with
  | nil => exact Nat.zero_le _
  | cons item items ih =>
    have first := bounded item (by simp)
    have others := ih fun other member => bounded other (by simp [member])
    rw [writeAll_cons, List.length_append, List.length_cons, Nat.mul_succ]
    omega

theorem readUpTo_writeAll (items : List Item) (enough : items.length ≤ count) :
    codec.readUpTo count (codec.writeAll items) = some items := by
  induction items generalizing count with
  | nil =>
    cases count <;> rfl
  | cons item items ih =>
    cases count with
    | zero => cases enough
    | succ count =>
      have later := ih (Nat.le_of_succ_le_succ enough)
      have front := codec.read_write item (codec.writeAll items)
      rw [writeAll_cons]
      obtain ⟨first, rest, same⟩ :=
        List.exists_cons_of_ne_nil (List.append_ne_nil_of_left_ne_nil (codec.nonempty item) (codec.writeAll items))
      rw [same] at front ⊢
      simp [readUpTo, front, later]

theorem writeAll_of_readUpTo (read : codec.readUpTo count bytes = some items) :
    bytes = codec.writeAll items := by
  induction count generalizing bytes items with
  | zero =>
    cases bytes with
    | nil =>
      cases read
      rfl
    | cons _ _ => cases read
  | succ count ih =>
    cases bytes with
    | nil =>
      cases read
      rfl
    | cons first rest =>
      obtain ⟨⟨item, after⟩, one, others⟩ := Option.bind_eq_some_iff.mp read
      obtain ⟨items, more, rfl⟩ := Option.map_eq_some_iff.mp others
      rw [codec.write_read _ _ _ one, ih more, writeAll_cons]

/-- What is read is what was written, and nothing else is read. -/
theorem readAll_eq_some_iff : codec.readAll bytes = some items ↔ bytes = codec.writeAll items := by
  constructor
  · exact codec.writeAll_of_readUpTo
  · rintro rfl
    exact codec.readUpTo_writeAll items (codec.length_le_writeAll items)

/-- Items in front of something that is made of items are the first of them. -/
theorem exists_of_writeAll_append (same : codec.writeAll front ++ rest = codec.writeAll items) :
    ∃ back, items = front ++ back ∧ rest = codec.writeAll back := by
  induction front generalizing items with
  | nil => exact ⟨items, rfl, same⟩
  | cons item front ih =>
    have here := codec.read_write item (codec.writeAll front ++ rest)
    rw [← List.append_assoc, ← writeAll_cons, same] at here
    cases items with
    | nil =>
      rw [writeAll_cons] at same
      have empty := (List.append_eq_nil_iff.mp (List.append_eq_nil_iff.mp same).1).1
      exact absurd empty (codec.nonempty item)
    | cons first others =>
      rw [writeAll_cons, codec.read_write] at here
      obtain ⟨rfl, later⟩ := Prod.mk.inj (Option.some.inj here)
      obtain ⟨back, rfl, done⟩ := ih later.symm
      exact ⟨back, rfl, done⟩

/-- What is not made of items is not read behind items either. -/
theorem readAll_append_eq_none (failed : codec.readAll rest = none) (front : List Item) :
    codec.readAll (codec.writeAll front ++ rest) = none := by
  rw [Option.eq_none_iff_forall_ne_some]
  intro items read
  obtain ⟨back, _, same⟩ := codec.exists_of_writeAll_append (codec.readAll_eq_some_iff.mp read)
  rw [codec.readAll_eq_some_iff.mpr same] at failed
  cases failed

end Codec

end Lib
