import Mathlib.Data.Finset.Card
import TrackCatalog.Proofs.Assembly.References
import TrackCatalog.Proofs.Assembly.Supplement

/-!
# What the identity index holds

The index is built track by track, and an id that is there already is passed over. So its ids are
those that some track carries, each of them once, and each stands for the first track that carries
it. The index of two lists in a row looks into that of the first list, then into that of the second.

* `IdentityIndex.nodup_ids_addTrack`, `nodup_ids_ofTracks`: one track keeps the ids apart, and so do
  all of them.
* `IdentityIndex.get?_ofTracks_eq_some_iff`, `get?_ofTracks_eq_none_iff`: what an id stands for.
* `IdentityIndex.size_ofTracks`, `isEmpty_ofTracks_iff`: how many ids there are, and when none.
* `IdentityIndex.ids_stand_for_first_carriers`: all of this, and what a list behind another adds.
-/

namespace TrackCatalog

variable {m : List Track} {k : Track} {id e : UInt32}

/-- The track carries the id, and no track before it does. -/
def IsFirstCarrier (m : List Track) (id : UInt32) (k : Track) : Prop :=
  k.externalId = some id ∧
    ∃ front back, m = front ++ k :: back ∧ ∀ u ∈ front, u.externalId ≠ some id

theorem find?_carrier_eq_some_iff :
    (m.find? fun u => u.externalId = some id) = some k ↔ IsFirstCarrier m id k := by
  simp [IsFirstCarrier, List.find?_eq_some_iff_append]

theorem isCarried_iff_mem_filterMap : IsCarried m id ↔ id ∈ m.filterMap Track.externalId := by
  rw [IsCarried, List.mem_filterMap]

namespace IdentityIndex

variable {x : IdentityIndex}

/-- The ids that the index knows, in the order in which they were added. -/
def ids (x : IdentityIndex) : List UInt32 := x.entries.map Prod.fst

theorem length_ids (x : IdentityIndex) : x.ids.length = x.size := List.length_map _

theorem isEmpty_iff_ids : x.isEmpty = true ↔ x.ids = [] := by
  rw [isEmpty, ids, List.isEmpty_iff, List.map_eq_nil_iff]

theorem mem_ids_iff : e ∈ x.ids ↔ (x.get? e).isSome := by
  rw [ids, get?, List.lookup_isSome_iff]
  simp

/-! ## Adding tracks -/

theorem ids_insertNew (x : IdentityIndex) (id : UInt32) (n : IndexEntry) :
    (x.insertNew id n).ids = if id ∈ x.ids then x.ids else x.ids ++ [id] := by
  rw [insertNew]
  by_cases h : id ∈ x.ids
  · rw [if_pos (mem_ids_iff.1 h), if_pos h]
  · rw [if_neg (mt mem_ids_iff.2 h), if_neg h, ids, List.map_append]
    rfl

theorem nodup_ids_insertNew (h : x.ids.Nodup) (id : UInt32) (n : IndexEntry) :
    (x.insertNew id n).ids.Nodup := by
  rw [ids_insertNew]
  split
  · exact h
  · next hid =>
    rw [← List.concat_eq_append]
    exact h.concat hid

/-- **One more track keeps the ids apart.** -/
theorem nodup_ids_addTrack (h : x.ids.Nodup) (k : Track) : (x.addTrack k).ids.Nodup := by
  rw [addTrack]
  split
  · exact h
  · exact nodup_ids_insertNew h _ _

/-- **No id is indexed twice.** -/
theorem nodup_ids_ofTracks (m : List Track) : (ofTracks m).ids.Nodup :=
  List.foldlRecOn (motive := fun x => x.ids.Nodup) m addTrack List.nodup_nil
    fun _ h k _ => nodup_ids_addTrack h k

/-! ## The index of a list -/

/-- **An id stands for its first carrier**, placed or not. -/
theorem get?_ofTracks_eq_some_iff {n : IndexEntry} :
    (ofTracks m).get? e = some n ↔ ∃ k, IsFirstCarrier m e k ∧ k.indexEntry = n := by
  simp only [get?_ofTracks, Option.map_eq_some_iff, find?_carrier_eq_some_iff]

theorem get?_ofTracks_eq_none_iff : (ofTracks m).get? e = none ↔ ¬ IsCarried m e := by
  rw [get?_ofTracks, Option.map_eq_none_iff, find?_carrier_eq_none_iff]

theorem mem_ids_ofTracks : e ∈ (ofTracks m).ids ↔ IsCarried m e := by
  rw [mem_ids_iff, Option.isSome_iff_ne_none, ne_eq, get?_ofTracks_eq_none_iff, not_not]

/-- **The size of an index** is the number of different ids in the list. -/
theorem size_ofTracks (m : List Track) :
    (ofTracks m).size = (m.filterMap Track.externalId).toFinset.card := by
  have hids : (ofTracks m).ids.toFinset = (m.filterMap Track.externalId).toFinset := by
    ext e
    rw [List.mem_toFinset, List.mem_toFinset, mem_ids_ofTracks, isCarried_iff_mem_filterMap]
  rw [← hids, List.toFinset_card_of_nodup (nodup_ids_ofTracks m), length_ids]

/-- **An index is empty** when no track has an id. -/
theorem isEmpty_ofTracks_iff :
    (ofTracks m).isEmpty = true ↔ ∀ k ∈ m, k.externalId = none := by
  rw [isEmpty_iff_ids, List.eq_nil_iff_forall_not_mem]
  simp only [mem_ids_ofTracks]
  constructor
  · intro h k hk
    exact Option.eq_none_iff_forall_ne_some.2 fun e he => h e ⟨k, hk, he⟩
  · rintro h e ⟨k, hk, he⟩
    rw [h k hk] at he
    cases he

/-- **Ids stand for their first carriers.** The index of a list has, for an id, the hash and slot of
the first track that carries it, also when that track is not placed, and nothing just when no track
does. It holds as many ids as there are different ones in the list, and none just when no track has
one. Behind the tracks of one list, those of another only add the ids that are new. -/
theorem ids_stand_for_first_carriers (m : List Track) :
    (∀ e n, (ofTracks m).get? e = some n ↔
      ∃ k, IsFirstCarrier m e k ∧ n = { hash := k.hash, slot := k.slot }) ∧
    (∀ e, (ofTracks m).get? e = none ↔ ∀ k ∈ m, k.externalId ≠ some e) ∧
    (ofTracks m).size = (m.filterMap Track.externalId).toFinset.card ∧
    ((ofTracks m).isEmpty = true ↔ ∀ k ∈ m, k.externalId = none) ∧
    ∀ rest e, (ofTracks (m ++ rest)).get? e =
      match (ofTracks m).get? e with
      | some n => some n
      | none => (ofTracks rest).get? e := by
  refine ⟨fun e n => ?_, fun e => ?_, size_ofTracks m, isEmpty_ofTracks_iff, fun rest e => ?_⟩
  · rw [get?_ofTracks_eq_some_iff]
    exact exists_congr fun k => and_congr_right fun _ => eq_comm
  · rw [get?_ofTracks_eq_none_iff, IsCarried, not_exists]
    exact forall_congr' fun k => not_and
  · rw [get?_ofTracks_append]
    cases (ofTracks m).get? e <;> rfl

/-- A draft without a slot is the first to carry the id 0; the others are passed over. -/
example :
    let m : List Track :=
      [⟨.filled 0xAA, none, "unlisted", 11, 1, none, none⟩,
        ⟨.filled 0xBB, some 0, "draft", 0, 1, none, none⟩,
        ⟨.filled 0xCC, some 0, "placed", 12, 1, none, none⟩]
    (ofTracks m).get? 0 = some ⟨.filled 0xBB, 0⟩ ∧ (ofTracks m).size = 1 := by
  decide

end IdentityIndex

end TrackCatalog
