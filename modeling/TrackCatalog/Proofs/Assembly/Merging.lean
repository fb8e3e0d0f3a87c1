import Mathlib.Data.List.Induction
import TrackCatalog.Assemble.Merge
import TrackCatalog.Proofs.Outcome

/-!
# What merging yields

The primary tracks stay in front, as they were read. What the supplemental source adds comes behind
them, and only a missing file lets a run go on without it.

* `Merge.Tracked`: the set and the list go together.
* `Merge.exists_rest_ofTracks`: the primary tracks are the front of the merged list, and none of the
  supplemental ones gets lost.
* `TrackSources.result_addSupplemental`, `result_merge`: the three ways in which merging goes.
* `TrackSources.mem_of_mem_merge`: where a merged track comes from.
-/

namespace TrackCatalog

namespace Merge

variable {m : Merge}

/-- What was seen is what is in the list. -/
def Tracked (m : Merge) : Prop := ∀ k, k ∈ m.seen ↔ k ∈ m.tracks

theorem tracked_start (primary : List Track) : (start primary).Tracked := fun _ => Iff.rfl

theorem Tracked.add (h : m.Tracked) (k : Track) : (m.add k).Tracked := by
  intro u
  unfold Merge.add
  split
  · exact h u
  · dsimp only
    rw [List.mem_cons, List.mem_append, List.mem_singleton, h u]
    exact or_comm

/-- So a track is added unless it is in the list. -/
theorem Tracked.tracks_add (h : m.Tracked) (k : Track) :
    (m.add k).tracks = if k ∈ m.tracks then m.tracks else m.tracks ++ [k] := by
  unfold Merge.add
  by_cases hk : k ∈ m.tracks
  · rw [if_pos ((h k).2 hk), if_pos hk]
  · rw [if_neg fun hs => hk ((h k).1 hs), if_neg hk]

theorem ofTracks_concat (primary xs : List Track) (k : Track) :
    ofTracks primary (xs ++ [k]) = (ofTracks primary xs).add k := by
  rw [ofTracks, List.foldl_append]
  rfl

theorem tracked_ofTracks (primary supplemental : List Track) :
    (ofTracks primary supplemental).Tracked := by
  induction supplemental using List.reverseRecOn with
  | nil => exact tracked_start primary
  | append_singleton xs k ih =>
    rw [ofTracks_concat]
    exact ih.add k

/-- Behind the tracks that are there come some of the others, and none of those gets lost. -/
theorem Tracked.exists_rest (h : m.Tracked) (supplemental : List Track) :
    ∃ rest, (supplemental.foldl Merge.add m).tracks = m.tracks ++ rest ∧
      rest.Sublist supplemental ∧ ∀ k ∈ supplemental, k ∈ m.tracks ++ rest := by
  induction supplemental generalizing m with
  | nil => exact ⟨[], by simp⟩
  | cons k supplemental ih =>
    obtain ⟨rest, hrest, hsub, hall⟩ := ih (h.add k)
    rw [List.foldl_cons]
    rw [h.tracks_add] at hrest hall
    by_cases hk : k ∈ m.tracks
    · rw [if_pos hk] at hrest hall
      refine ⟨rest, hrest, hsub.cons k, List.forall_mem_cons.2 ⟨?_, hall⟩⟩
      exact List.mem_append_left _ hk
    · rw [if_neg hk, List.append_assoc] at hrest hall
      refine ⟨k :: rest, hrest, hsub.cons_cons k, List.forall_mem_cons.2 ⟨?_, hall⟩⟩
      exact List.mem_append_right _ List.mem_cons_self

/-- **A merge keeps all tracks**: the primary ones, and behind them some of the supplemental ones,
of which none gets lost. -/
theorem exists_rest_ofTracks (primary supplemental : List Track) :
    ∃ rest, (ofTracks primary supplemental).tracks = primary ++ rest ∧
      rest.Sublist supplemental ∧ ∀ k ∈ supplemental, k ∈ primary ++ rest :=
  (tracked_start primary).exists_rest supplemental

/-- **The primary tracks are the front of the merged list.** -/
theorem prefix_ofTracks (primary supplemental : List Track) :
    primary <+: (ofTracks primary supplemental).tracks := by
  obtain ⟨rest, hrest, -⟩ := exists_rest_ofTracks primary supplemental
  rw [hrest]
  exact List.prefix_append _ _

end Merge

namespace TrackSources

variable {s : TrackSources} {primary : List Track} {t : FileTree} {m : MergedTracks}

/-- A supplemental source adds its tracks, is done without when it is missing, or stops the run. -/
theorem result_addSupplemental (s : SupplementalSource) (primary : List Track) (t : FileTree) :
    (addSupplemental s primary t).result =
      match (s.source.readAll t).result with
      | .ok extra => .ok ⟨(Merge.ofTracks primary extra).tracks, []⟩
      | .error (.sourceNotFound _) =>
        .ok ⟨primary, [.supplementalMissing s.source.path s.url]⟩
      | .error e => .error e := by
  unfold addSupplemental
  rw [Traced.result_bind, Traced.result_attempt]
  cases (s.source.readAll t).result with
  | ok extra => rfl
  | error e => cases e <;> rfl

theorem result_merge (s : TrackSources) (t : FileTree) :
    (s.merge t).result =
      (s.primary.readAll t).result.bind fun primary =>
        match s.supplemental with
        | none => .ok ⟨primary, []⟩
        | some supplemental => (addSupplemental supplemental primary t).result := by
  unfold merge
  rw [Traced.result_bind]
  congr 1
  funext primary
  cases s.supplemental <;> rfl

/-- Merged tracks start with those of the primary source. -/
theorem exists_prefix_of_merge (h : (s.merge t).result = .ok m) :
    ∃ primary, (s.primary.readAll t).result = .ok primary ∧ primary <+: m.tracks := by
  rw [result_merge] at h
  obtain ⟨primary, hp, h⟩ := Except.bind_eq_ok_iff.1 h
  refine ⟨primary, hp, ?_⟩
  cases hs : s.supplemental with
  | none =>
    rw [hs] at h
    cases h
    exact List.prefix_rfl
  | some supplemental =>
    rw [hs] at h
    dsimp only at h
    rw [result_addSupplemental] at h
    split at h
    · cases h
      exact Merge.prefix_ofTracks _ _
    · cases h
      exact List.prefix_rfl
    · cases h

/-- Every merged track was read from one of the sources. -/
theorem mem_of_mem_merge (h : (s.merge t).result = .ok m) {k : Track} (hk : k ∈ m.tracks) :
    (∃ primary, (s.primary.readAll t).result = .ok primary ∧ k ∈ primary) ∨
      ∃ x extra, s.supplemental = some x ∧ (x.source.readAll t).result = .ok extra ∧ k ∈ extra := by
  rw [result_merge] at h
  obtain ⟨primary, hp, h⟩ := Except.bind_eq_ok_iff.1 h
  cases hs : s.supplemental with
  | none =>
    rw [hs] at h
    cases h
    exact .inl ⟨primary, hp, hk⟩
  | some x =>
    rw [hs] at h
    dsimp only at h
    rw [result_addSupplemental] at h
    split at h
    · next extra hextra =>
      cases h
      obtain ⟨rest, hrest, hsub, -⟩ := Merge.exists_rest_ofTracks primary extra
      rw [hrest, List.mem_append] at hk
      rcases hk with hk | hk
      · exact .inl ⟨primary, hp, hk⟩
      · exact .inr ⟨x, extra, rfl, hextra, hsub.subset hk⟩
    · cases h
      exact .inl ⟨primary, hp, hk⟩
    · cases h

end TrackSources

end TrackCatalog
