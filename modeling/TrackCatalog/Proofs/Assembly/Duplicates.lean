import TrackCatalog.Proofs.Assembly.Supplement

/-!
# Leaving out repeated tracks

A supplemental track that equals one before it is left out of the merged list. Nothing it could add
is missing then: the earlier one has the same id, hash and placement, so the index and the emitted
tracks are those of the plain concatenation.

* `Merge.tracks_ofTracks`: the merged list, by the positions of the supplemental tracks that are new.
* `Merge.length_ofTracks`: every track is merged or counted as a duplicate.
* `Merge.apply_ofTracks`: what a repeated track does not change is the same for the merged list and
  for the concatenation; `IdentityIndex.ofTracks_concat_of_mem` and `emittedTracks_concat_of_mem` are
  the two cases that count.
* `Assembler.merged_list_stands_for_concatenation`: all of this for what an assembler reads.
-/

namespace TrackCatalog

variable {xs ys : List Track} {k : Track} {i : Nat}

/-- At the position stands a track that is none of the primary ones, and not one that stands before
it. -/
def IsNew (primary supplemental : List Track) (i : Nat) : Prop :=
  ∃ k ∈ supplemental[i]?, k ∉ primary ∧ ∀ j < i, supplemental[j]? ≠ some k

instance (primary supplemental : List Track) : DecidablePred (IsNew primary supplemental) :=
  fun i => by
    unfold IsNew
    infer_instance

/-- The positions of the supplemental tracks that are new, in order. -/
def newPositions (primary supplemental : List Track) : List Nat :=
  (List.range supplemental.length).filter (IsNew primary supplemental)

/-! ## One more track -/

/-- What stands behind a position does not matter to it. -/
theorem isNew_append (hi : i < xs.length) (primary : List Track) :
    IsNew primary (xs ++ ys) i ↔ IsNew primary xs i := by
  unfold IsNew
  rw [List.getElem?_append_left hi]
  refine exists_congr fun k => and_congr_right fun _ => and_congr_right fun _ => ?_
  refine forall_congr' fun j => imp_congr_right fun hj => ?_
  rw [List.getElem?_append_left (by omega)]

theorem isNew_concat (primary xs : List Track) (k : Track) :
    IsNew primary (xs ++ [k]) xs.length ↔ k ∉ primary ∧ k ∉ xs := by
  unfold IsNew
  rw [List.getElem?_concat_length]
  constructor
  · rintro ⟨u, hu, hp, hbefore⟩
    obtain rfl : k = u := by simpa using hu
    refine ⟨hp, fun hm => ?_⟩
    obtain ⟨j, hj⟩ := List.getElem?_of_mem hm
    obtain ⟨hlt, -⟩ := List.getElem?_eq_some_iff.1 hj
    exact hbefore j hlt (by rw [List.getElem?_append_left hlt, hj])
  · rintro ⟨hp, hx⟩
    refine ⟨k, rfl, hp, fun j hj he => hx ?_⟩
    rw [List.getElem?_append_left hj] at he
    exact List.mem_of_getElem? he

theorem newPositions_concat (primary xs : List Track) (k : Track) :
    newPositions primary (xs ++ [k]) =
      newPositions primary xs ++ if k ∉ primary ∧ k ∉ xs then [xs.length] else [] := by
  unfold newPositions
  rw [List.length_append, List.length_singleton,
    filter_range_succ fun i hi => isNew_append hi primary]
  simp only [isNew_concat]

namespace Merge

/-- Nothing is lost in a merge, and nothing comes from elsewhere. -/
theorem mem_tracks_ofTracks (primary xs : List Track) :
    k ∈ (ofTracks primary xs).tracks ↔ k ∈ primary ∨ k ∈ xs := by
  obtain ⟨rest, hrest, hsub, hall⟩ := exists_rest_ofTracks primary xs
  rw [hrest, List.mem_append]
  refine ⟨fun h => h.imp_right fun hk => hsub.subset hk, ?_⟩
  rintro (hk | hk)
  · exact .inl hk
  · exact List.mem_append.1 (hall k hk)

/-- One more track is merged if it is none of those before it. -/
theorem tracks_ofTracks_concat (primary xs : List Track) (k : Track) :
    (ofTracks primary (xs ++ [k])).tracks =
      (ofTracks primary xs).tracks ++ if k ∉ primary ∧ k ∉ xs then [k] else [] := by
  rw [ofTracks_concat, (tracked_ofTracks primary xs).tracks_add]
  by_cases hk : k ∈ (ofTracks primary xs).tracks
  · have hold : ¬ (k ∉ primary ∧ k ∉ xs) := by
      rw [mem_tracks_ofTracks] at hk
      tauto
    rw [if_pos hk, if_neg hold, List.append_nil]
  · have hnew : k ∉ primary ∧ k ∉ xs := by
      rw [mem_tracks_ofTracks] at hk
      tauto
    rw [if_neg hk, if_pos hnew]

/-- **The merged list** is that of the primary source, then the supplemental tracks that are new, in
their order. -/
theorem tracks_ofTracks (primary supplemental : List Track) :
    (ofTracks primary supplemental).tracks =
      primary ++ (newPositions primary supplemental).filterMap fun i => supplemental[i]? := by
  induction supplemental using List.reverseRecOn with
  | nil =>
    rw [newPositions, List.length_nil, List.range_zero, List.filter_nil, List.filterMap_nil,
      List.append_nil]
    rfl
  | append_singleton xs k ih =>
    have hfront : (newPositions primary xs).filterMap (fun i => (xs ++ [k])[i]?) =
        (newPositions primary xs).filterMap fun i => xs[i]? := filterMap_filter_range xs [k]
    rw [tracks_ofTracks_concat, newPositions_concat, List.filterMap_append, hfront,
      ← List.append_assoc, ← ih]
    congr 1
    split
    · rw [List.filterMap_cons, List.getElem?_concat_length]
      rfl
    · rfl

/-- **Every track is merged or counted as a duplicate.** -/
theorem length_ofTracks (primary supplemental : List Track) :
    (ofTracks primary supplemental).tracks.length + (ofTracks primary supplemental).duplicates =
      primary.length + supplemental.length := by
  induction supplemental using List.reverseRecOn with
  | nil => rfl
  | append_singleton xs k ih =>
    rw [ofTracks_concat, add, List.length_append, List.length_singleton]
    split
    · dsimp only
      omega
    · dsimp only
      rw [List.length_append, List.length_singleton]
      omega

/-- **What repeated tracks do not change** is the same for the merged list and for the
concatenation, if one more track makes of equal results equal results. -/
theorem apply_ofTracks {β : Type} (f : List Track → β)
    (repeated : ∀ xs, ∀ k ∈ xs, f (xs ++ [k]) = f xs)
    (step : ∀ xs ys k, (∀ u, u ∈ xs ↔ u ∈ ys) → f xs = f ys → f (xs ++ [k]) = f (ys ++ [k]))
    (primary supplemental : List Track) :
    f (ofTracks primary supplemental).tracks = f (primary ++ supplemental) := by
  induction supplemental using List.reverseRecOn with
  | nil =>
    rw [List.append_nil]
    rfl
  | append_singleton xs k ih =>
    have hmem : ∀ u, u ∈ (ofTracks primary xs).tracks ↔ u ∈ primary ++ xs := fun u => by
      rw [mem_tracks_ofTracks, List.mem_append]
    rw [ofTracks_concat, ← List.append_assoc, (tracked_ofTracks primary xs).tracks_add]
    split
    · next hk => rw [ih, repeated _ k ((hmem k).1 hk)]
    · exact step _ _ k hmem ih

end Merge

/-! ## What a repeated track adds -/

namespace IdentityIndex

theorem ofTracks_concat (xs : List Track) (k : Track) :
    ofTracks (xs ++ [k]) = (ofTracks xs).addTrack k := by
  rw [ofTracks, List.foldl_append]
  rfl

/-- The index knows the id of a track that is there already. -/
theorem ofTracks_concat_of_mem (hk : k ∈ xs) : ofTracks (xs ++ [k]) = ofTracks xs := by
  rw [ofTracks_concat, addTrack]
  split
  · rfl
  · next id hid =>
    have hknown : ((ofTracks xs).get? id).isSome := by
      rw [get?_ofTracks, Option.isSome_map, List.find?_isSome]
      exact ⟨k, hk, by rw [hid, decide_eq_true_eq]⟩
    rw [insertNew, if_pos hknown]

/-- **The index of the merged list** is that of the concatenation. -/
theorem ofTracks_merge (primary supplemental : List Track) :
    ofTracks (Merge.ofTracks primary supplemental).tracks = ofTracks (primary ++ supplemental) := by
  apply Merge.apply_ofTracks
  · intro xs k hk
    exact ofTracks_concat_of_mem hk
  · intro xs ys k _ h
    rw [ofTracks_concat, ofTracks_concat, h]

end IdentityIndex

/-- The hash of a track that is there already is taken, if the track is placed. -/
theorem emittedTracks_concat_of_mem (hk : k ∈ xs) :
    emittedTracks (xs ++ [k]) = emittedTracks xs := by
  have htaken : ¬ (k.slot ≠ 0 ∧ k.hash ∉ placedHashes xs) := fun h =>
    h.2 (mem_placedHashes.2 ⟨k, hk, h.1, rfl⟩)
  rw [emittedTracks_concat, if_neg htaken, List.append_nil]

/-- **The emitted tracks of the merged list** are those of the concatenation. -/
theorem emittedTracks_merge (primary supplemental : List Track) :
    emittedTracks (Merge.ofTracks primary supplemental).tracks =
      emittedTracks (primary ++ supplemental) := by
  apply Merge.apply_ofTracks
  · intro xs k hk
    exact emittedTracks_concat_of_mem hk
  · intro xs ys k hmem h
    have hplaced : k.hash ∈ placedHashes xs ↔ k.hash ∈ placedHashes ys := by
      simp only [mem_placedHashes, hmem]
    rw [emittedTracks_concat, emittedTracks_concat, h]
    simp only [hplaced]

/-! ## Assembling -/

namespace TrackSources

variable {x : TrackSources} {s : SupplementalSource} {t : FileTree} {primary extra : List Track}

theorem events_addSupplemental (he : (s.source.readAll t).result = .ok extra) :
    (addSupplemental s primary t).events = (s.source.readAll t).events ++
      [.mergedSupplemental s.source.path (Merge.ofTracks primary extra).tracks.length
        (Merge.ofTracks primary extra).duplicates] := by
  have hread : (s.source.readAll t).attempt.result = .ok (.ok extra) := by
    rw [Traced.result_attempt, he]
  unfold addSupplemental
  rw [Traced.events_bind_of_ok hread]
  rfl

/-- The last thing that merging logs: the source, how many tracks there are now, and how many were
left out. -/
theorem getLast?_events_merge (hs : x.supplemental = some s)
    (hp : (x.primary.readAll t).result = .ok primary)
    (he : (s.source.readAll t).result = .ok extra) :
    (x.merge t).events.getLast? =
      some (.mergedSupplemental s.source.path (Merge.ofTracks primary extra).tracks.length
        (Merge.ofTracks primary extra).duplicates) := by
  unfold merge
  rw [Traced.events_bind_of_ok hp, Traced.events_bind_of_ok rfl, hs]
  dsimp only
  rw [events_addSupplemental he, ← List.append_assoc, ← List.append_assoc]
  exact List.getLast?_concat

end TrackSources

namespace Assembler

variable {a : Assembler} {t : FileTree}

/-- Tracks with the same index and the same emitted tracks make the same catalog. -/
theorem assembleTracks_congr (hindex : IdentityIndex.ofTracks xs = IdentityIndex.ofTracks ys)
    (hemitted : emittedTracks xs = emittedTracks ys) :
    (a.assembleTracks xs t).result = (a.assembleTracks ys t).result := by
  unfold assembleTracks
  simp only [Traced.result_bind, Traced.result_note, hindex, hemitted]

/-- **The merged list stands for the plain concatenation.** The primary tracks come first, as they
were read, and then the supplemental tracks that equal none of them and none before them, in their
order; all others are counted as duplicates. What the assembler makes of this list, a catalog or an
error, is what it makes of all primary tracks followed by all supplemental ones. -/
theorem merged_list_stands_for_concatenation (a : Assembler) (s : SupplementalSource) (t : FileTree)
    (primary extra : List Track) (hs : a.tracks.supplemental = some s)
    (hp : (a.tracks.primary.readAll t).result = .ok primary)
    (he : (s.source.readAll t).result = .ok extra) :
    ∃ merged duplicates,
      (a.tracks.merge t).result = .ok ⟨merged, []⟩ ∧
      merged = primary ++ (newPositions primary extra).filterMap (fun i => extra[i]?) ∧
      (a.tracks.merge t).events.getLast? =
        some (.mergedSupplemental s.source.path merged.length duplicates) ∧
      merged.length + duplicates = primary.length + extra.length ∧
      (a.assemble t).result =
        (a.assembleTracks (primary ++ extra) t).result.map fun c => ⟨c, []⟩ := by
  have hm : (a.tracks.merge t).result = .ok ⟨(Merge.ofTracks primary extra).tracks, []⟩ := by
    rw [TrackSources.result_merge, hp, hs]
    dsimp only [Except.bind]
    rw [TrackSources.result_addSupplemental, he]
  have hsame := assembleTracks_congr (a := a) (t := t) (IdentityIndex.ofTracks_merge primary extra)
    (emittedTracks_merge primary extra)
  refine ⟨_, _, hm, Merge.tracks_ofTracks primary extra,
    TrackSources.getLast?_events_merge hs hp he, Merge.length_ofTracks primary extra, ?_⟩
  rw [result_assemble, hm]
  dsimp only [Except.bind]
  rw [hsame]

namespace Overlap

/-- One file read twice: the primary source passes over its first line. -/
def sources : Assembler :=
  { Repeated.sources with
    tracks := ⟨⟨⟨"tracks", 1⟩, 40⟩, some ⟨⟨⟨"tracks", 0⟩, 40⟩, none⟩⟩ }

/-- The track on the first line. -/
def first : Track := ⟨Repeated.taken, some 7, "first", 11, 1, none, none⟩

/-- The track on the second line. -/
def second : Track := ⟨Repeated.taken, some 8, "second", 12, 1, none, none⟩

/-- The second track is merged once, before the first. -/
theorem shared_track_is_merged_once :
    (sources.tracks.primary.readAll Repeated.tree).result = .ok [second] ∧
      (TrackSource.readAll ⟨⟨"tracks", 0⟩, 40⟩ Repeated.tree).result = .ok [first, second] ∧
      (sources.tracks.merge Repeated.tree).result = .ok ⟨[second, first], []⟩ ∧
      (sources.tracks.merge Repeated.tree).events.getLast? =
        some (.mergedSupplemental "tracks" 2 1) ∧
      (sources.assemble Repeated.tree).result =
        (sources.assembleTracks [second, first, second] Repeated.tree).result.map
          fun c => ⟨c, []⟩ := by
  have hread : (sources.tracks.primary.readAll Repeated.tree).result = .ok [second] ∧
      (TrackSource.readAll ⟨⟨"tracks", 0⟩, 40⟩ Repeated.tree).result = .ok [first, second] := by
    decide +kernel
  obtain ⟨merged, duplicates, hm, hlist, hlog, hcount, hsame⟩ :=
    merged_list_stands_for_concatenation sources _ Repeated.tree [second] [first, second] rfl
      hread.1 hread.2
  have hnew : newPositions [second] [first, second] = [0] := by decide
  rw [hnew] at hlist
  obtain rfl : merged = [second, first] := hlist
  obtain rfl : duplicates = 1 := by
    simp only [List.length_cons, List.length_nil] at hcount
    omega
  exact ⟨hread.1, hread.2, hm, hlog, hsame⟩

end Overlap

end Assembler

end TrackCatalog
