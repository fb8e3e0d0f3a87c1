import TrackCatalog.Assemble

/-!
# Which track counts

Two rules choose between tracks that have something in common.

* `IdentityIndex.get?_ofTracks`: an external id stands for the first track that carries it, placed
  or not.
* `find?_emittedTracks`: a hash stands for the first placed track that has it.
* `nodup_hash_emittedTracks`: no hash is emitted twice.
-/

namespace TrackCatalog

/-- What the index remembers of a track. -/
def Track.indexEntry (t : Track) : IndexEntry := ⟨t.hash, t.slot⟩

theorem Track.isAssigned_iff {t : Track} : t.isAssigned = true ↔ t.slot ≠ Course.unassignedSlot := by
  simp [Track.isAssigned]

namespace IdentityIndex

variable {x : IdentityIndex} {id e : UInt32}

/-- A new id is found only if the index did not know it. -/
theorem get?_insertNew (n : IndexEntry) :
    (x.insertNew id n).get? e = (x.get? e).or (if e = id then some n else none) := by
  unfold insertNew get?
  cases hid : x.entries.lookup id with
  | some m =>
    by_cases he : e = id
    · simp [he, hid]
    · simp [he]
  | none =>
    simp only [Option.isSome_none, Bool.false_eq_true, if_false, List.lookup_append,
      List.lookup_cons, List.lookup_nil]
    by_cases he : e = id
    · simp [he]
    · simp [he, beq_false_of_ne he]

theorem get?_addTrack (t : Track) :
    (x.addTrack t).get? e =
      (x.get? e).or (if t.externalId = some e then some t.indexEntry else none) := by
  unfold addTrack
  cases ht : t.externalId with
  | none => simp
  | some id => simp [get?_insertNew, Track.indexEntry, eq_comm]

/-- Adding tracks in turn never changes what an id stands for already. -/
theorem get?_foldl (tracks : List Track) (x : IdentityIndex) (e : UInt32) :
    (tracks.foldl addTrack x).get? e =
      (x.get? e).or ((tracks.find? fun t => t.externalId = some e).map Track.indexEntry) := by
  induction tracks generalizing x with
  | nil => simp
  | cons t rest ih =>
    rw [List.foldl_cons, ih, get?_addTrack, Option.or_assoc, List.find?_cons]
    by_cases ht : t.externalId = some e <;> simp [ht]

/-- **The index is a search for the first track with an id.** -/
theorem get?_ofTracks (tracks : List Track) (e : UInt32) :
    (ofTracks tracks).get? e =
      (tracks.find? fun t => t.externalId = some e).map Track.indexEntry := by
  rw [ofTracks, get?_foldl]
  simp [get?, empty]

/-- What the index knows of an id comes from a track that carries it. -/
theorem exists_of_get?_ofTracks {tracks : List Track} {n : IndexEntry}
    (h : (ofTracks tracks).get? e = some n) :
    ∃ t ∈ tracks, t.externalId = some e ∧ t.indexEntry = n := by
  rw [get?_ofTracks, Option.map_eq_some_iff] at h
  obtain ⟨t, ht, hn⟩ := h
  exact ⟨t, List.mem_of_find?_eq_some ht, by simpa using List.find?_some ht, hn⟩

end IdentityIndex

theorem find?_firstPerHash (h : Hash) (tracks : List Track) (seen : List Hash) :
    (firstPerHash seen tracks).find? (fun t => t.hash = h) =
      if h ∈ seen then none else tracks.find? fun t => t.hash = h := by
  induction tracks generalizing seen with
  | nil => simp [firstPerHash]
  | cons t rest ih =>
    rw [firstPerHash]
    by_cases hs : t.hash ∈ seen
    · -- what is left out here could only be looked for in vain: its hash was seen
      rw [if_pos hs, ih]
      by_cases hh : h ∈ seen
      · simp [hh]
      · have hne : t.hash ≠ h := fun e => hh (e ▸ hs)
        simp [hh, hne]
    · rw [if_neg hs, List.find?_cons, List.find?_cons, ih]
      by_cases he : t.hash = h
      · subst he
        simp [hs]
      · have : h ≠ t.hash := fun e => he e.symm
        simp [he, this]

/-- **A catalog finds, under a hash, the first placed track that has it.** -/
theorem find?_emittedTracks (h : Hash) (tracks : List Track) :
    (emittedTracks tracks).find? (fun t => t.hash = h) =
      tracks.find? fun t => t.isAssigned && t.hash = h := by
  rw [emittedTracks, find?_firstPerHash, if_neg List.not_mem_nil, List.find?_filter]
  congr 1
  funext t
  simp

theorem firstPerHash_sublist (tracks : List Track) (seen : List Hash) :
    (firstPerHash seen tracks).Sublist tracks := by
  induction tracks generalizing seen with
  | nil => exact .slnil
  | cons t rest ih =>
    rw [firstPerHash]
    split
    · exact (ih seen).cons t
    · exact (ih _).cons_cons t

theorem mem_of_mem_emittedTracks {tracks : List Track} {t : Track} (h : t ∈ emittedTracks tracks) :
    t ∈ tracks ∧ t.isAssigned = true :=
  List.mem_filter.1 ((firstPerHash_sublist _ []).subset h)

theorem nodup_hash_firstPerHash (tracks : List Track) (seen : List Hash) :
    ((firstPerHash seen tracks).map Track.hash).Nodup ∧
      ∀ t ∈ firstPerHash seen tracks, t.hash ∉ seen := by
  induction tracks generalizing seen with
  | nil => simp [firstPerHash]
  | cons t rest ih =>
    rw [firstPerHash]
    split
    · exact ih seen
    · next hs =>
      -- the rest avoids the hash of `t`, which counts as seen there
      obtain ⟨hnd, hnew⟩ := ih (t.hash :: seen)
      refine ⟨?_, ?_⟩
      · rw [List.map_cons, List.nodup_cons]
        refine ⟨fun hm => ?_, hnd⟩
        obtain ⟨u, hu, hut⟩ := List.mem_map.1 hm
        exact hnew u hu (by simp [hut])
      · rintro u hu
        rcases List.mem_cons.1 hu with rfl | hu
        · exact hs
        · exact fun hm => hnew u hu (List.mem_cons_of_mem _ hm)

/-- **No hash is emitted twice.** -/
theorem nodup_hash_emittedTracks (tracks : List Track) :
    ((emittedTracks tracks).map Track.hash).Nodup :=
  (nodup_hash_firstPerHash _ []).1

end TrackCatalog
