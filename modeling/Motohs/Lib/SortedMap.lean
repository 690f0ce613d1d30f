import Mathlib.Data.List.Nodup
import Mathlib.Order.Lattice

/-! A map kept as its entries in increasing order of the keys, to which a key is
added only once: a later value for a key that is there is dropped. -/

namespace Lib

structure SortedMap (Key : Type u) (Value : Type v) [LinearOrder Key] where
  entries : List (Key × Value)
  sorted : entries.Pairwise fun one other => one.1 < other.1

namespace SortedMap

variable {Key : Type u} {Value : Type v} [LinearOrder Key] {key : Key} {value : Value}
variable {entries pairs : List (Key × Value)}

def empty : SortedMap Key Value := ⟨[], .nil⟩

def insertEntry (key : Key) (value : Value) : List (Key × Value) → List (Key × Value)
  | [] => [(key, value)]
  | first :: rest =>
    if key < first.1 then (key, value) :: first :: rest
    else if key = first.1 then first :: rest
    else first :: insertEntry key value rest

theorem mem_insertEntry (member : entry ∈ insertEntry key value entries) :
    entry = (key, value) ∨ entry ∈ entries := by
  induction entries with
  | nil => exact .inl (List.mem_singleton.mp member)
  | cons first rest ih =>
    unfold insertEntry at member
    split at member
    · exact List.mem_cons.mp member
    · split at member
      · exact .inr member
      · rcases List.mem_cons.mp member with same | later
        · exact .inr (by simp [same])
        · rcases ih later with new | old
          · exact .inl new
          · exact .inr (List.mem_cons_of_mem _ old)

theorem sorted_insertEntry (sorted : entries.Pairwise fun one other => one.1 < other.1) :
    (insertEntry key value entries).Pairwise fun one other => one.1 < other.1 := by
  induction entries with
  | nil => exact List.pairwise_singleton _ _
  | cons first rest ih =>
    obtain ⟨smallest, increasing⟩ := List.pairwise_cons.mp sorted
    unfold insertEntry
    split
    · rename_i smaller
      refine List.pairwise_cons.mpr ⟨fun other member => ?_, sorted⟩
      rcases List.mem_cons.mp member with rfl | later
      · exact smaller
      · exact lt_trans smaller (smallest other later)
    · split
      · exact sorted
      · rename_i notSmaller different
        refine List.pairwise_cons.mpr ⟨fun other member => ?_, ih increasing⟩
        rcases mem_insertEntry member with rfl | old
        · exact lt_of_le_of_ne (not_lt.mp notSmaller) (Ne.symm different)
        · exact smallest other old

def insert (map : SortedMap Key Value) (key : Key) (value : Value) : SortedMap Key Value :=
  ⟨insertEntry key value map.entries, sorted_insertEntry map.sorted⟩

def values (map : SortedMap Key Value) : List Value := map.entries.map Prod.snd

/-- Insert the pairs one after the other. -/
def insertAll (map : SortedMap Key Value) (pairs : List (Key × Value)) : SortedMap Key Value :=
  pairs.foldl (fun map pair => map.insert pair.1 pair.2) map

theorem insertEntry_perm (absent : key ∉ entries.map Prod.fst) :
    (insertEntry key value entries).Perm ((key, value) :: entries) := by
  induction entries with
  | nil => exact List.Perm.refl _
  | cons first rest ih =>
    rw [List.map_cons, List.mem_cons, not_or] at absent
    unfold insertEntry
    split
    · exact List.Perm.refl _
    · rw [if_neg absent.1]
      exact ((ih absent.2).cons first).trans (.swap _ _ _)

theorem mem_insertAll {map : SortedMap Key Value} (member : entry ∈ (map.insertAll pairs).entries) :
    entry ∈ map.entries ∨ entry ∈ pairs := by
  induction pairs generalizing map with
  | nil => exact .inl member
  | cons pair rest ih =>
    change entry ∈ ((map.insert pair.1 pair.2).insertAll rest).entries at member
    rcases ih member with old | later
    · rcases mem_insertEntry old with rfl | old
      · exact .inr List.mem_cons_self
      · exact .inl old
    · exact .inr (List.mem_cons_of_mem _ later)

/-- Pairs with distinct keys, none of them in the map yet, are all kept. -/
theorem insertAll_perm {map : SortedMap Key Value}
    (distinct : ((map.entries ++ pairs).map Prod.fst).Nodup) :
    (map.insertAll pairs).entries.Perm (map.entries ++ pairs) := by
  induction pairs generalizing map with
  | nil =>
    rw [List.append_nil]
    exact List.Perm.refl _
  | cons pair rest ih =>
    have moved : (map.entries ++ pair :: rest).Perm (pair :: map.entries ++ rest) :=
      List.perm_middle
    have separate := (moved.map Prod.fst).nodup_iff.mp distinct
    rw [List.cons_append, List.map_cons, List.nodup_cons, List.map_append, List.mem_append,
      not_or] at separate
    have inserted : (map.insert pair.1 pair.2).entries.Perm (pair :: map.entries) :=
      insertEntry_perm separate.1.1
    have whole := (inserted.append_right rest).trans moved.symm
    exact (ih ((whole.map Prod.fst).nodup_iff.mpr distinct)).trans whole

end SortedMap

end Lib
