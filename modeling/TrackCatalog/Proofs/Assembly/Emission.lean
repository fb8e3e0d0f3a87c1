import Mathlib.Data.List.Basic
import Mathlib.Data.List.Induction
import Mathlib.Data.List.Nodup
import TrackCatalog.Proofs.Assembly.Closure
import TrackCatalog.Proofs.Assembly.Merging

/-!
# Exactly which tracks are emitted

A placed track is emitted unless a placed track before it has its hash. So what is emitted of a
list grows with the list: one more track either joins at the end or changes nothing
(`emittedTracks_concat`), and everything here is an induction on that step.

* `emittedTracks_append`: a longer list emits what its front emits, then some of the rest.
* `emittedTracks_eq_positions`: the emitted tracks, by their positions in the list.
* `length_eq_counts`: placed or not, first of its hash or not: every track is counted once.
* `Assembler.emits_first_placed_tracks`: all of this for what an assembler yields and logs.
-/

namespace TrackCatalog

variable {xs ys : List Track} {h : Hash} {i : Nat} {seen seen' : List Hash}

/-! ## One more track -/

/-- Of the hashes that were seen only the set counts. -/
theorem firstPerHash_congr (xs : List Track) (hs : ∀ h, h ∈ seen ↔ h ∈ seen') :
    firstPerHash seen xs = firstPerHash seen' xs := by
  induction xs generalizing seen seen' with
  | nil => rfl
  | cons t rest ih =>
    have hcons : ∀ h, h ∈ t.hash :: seen ↔ h ∈ t.hash :: seen' := by
      intro h
      rw [List.mem_cons, List.mem_cons, hs]
    by_cases ht : t.hash ∈ seen
    · rw [firstPerHash, firstPerHash, if_pos ht, if_pos ((hs _).1 ht), ih hs]
    · have ht' : t.hash ∉ seen' := fun hm => ht ((hs _).2 hm)
      rw [firstPerHash, firstPerHash, if_neg ht, if_neg ht', ih hcons]

theorem firstPerHash_append (xs ys : List Track) (seen : List Hash) :
    firstPerHash seen (xs ++ ys) =
      firstPerHash seen xs ++ firstPerHash (xs.map Track.hash ++ seen) ys := by
  induction xs generalizing seen with
  | nil => rfl
  | cons t rest ih =>
    rw [List.cons_append, firstPerHash, firstPerHash]
    by_cases ht : t.hash ∈ seen
    · -- the hash of `t` was seen before, so it makes no difference to the rest
      rw [if_pos ht, if_pos ht, ih]
      congr 1
      apply firstPerHash_congr
      intro h
      simp only [List.map_cons, List.mem_append, List.mem_cons]
      refine ⟨fun hm => hm.imp_left .inr, ?_⟩
      rintro ((rfl | hm) | hm)
      · exact .inr ht
      · exact .inl hm
      · exact .inr hm
    · rw [if_neg ht, if_neg ht, ih, List.cons_append]
      congr 2
      apply firstPerHash_congr
      intro h
      simp only [List.map_cons, List.mem_append, List.mem_cons]
      tauto

/-- The hashes of the placed tracks. -/
def placedHashes (xs : List Track) : List Hash := (xs.filter Track.isAssigned).map Track.hash

theorem mem_placedHashes : h ∈ placedHashes xs ↔ ∃ k ∈ xs, k.slot ≠ 0 ∧ k.hash = h := by
  unfold placedHashes
  rw [List.mem_map]
  constructor
  · rintro ⟨k, hk, rfl⟩
    obtain ⟨hm, ha⟩ := List.mem_filter.1 hk
    exact ⟨k, hm, Track.isAssigned_iff.1 ha, rfl⟩
  · rintro ⟨k, hm, hs, rfl⟩
    exact ⟨k, List.mem_filter.2 ⟨hm, Track.isAssigned_iff.2 hs⟩, rfl⟩

/-- **A longer list emits what its front emits**, and then tracks of the rest with other hashes. -/
theorem emittedTracks_append (xs ys : List Track) :
    emittedTracks (xs ++ ys) =
      emittedTracks xs ++ firstPerHash (placedHashes xs) (ys.filter Track.isAssigned) := by
  unfold emittedTracks placedHashes
  rw [List.filter_append, firstPerHash_append, List.append_nil]

/-- One more track is emitted if it is placed and no placed track before it has its hash. -/
theorem emittedTracks_concat (xs : List Track) (t : Track) :
    emittedTracks (xs ++ [t]) =
      emittedTracks xs ++ if t.slot ≠ 0 ∧ t.hash ∉ placedHashes xs then [t] else [] := by
  rw [emittedTracks_append]
  congr 1
  by_cases ha : t.slot = 0
  · have hn : t.isAssigned = false := by
      rw [← Bool.not_eq_true, Track.isAssigned_iff]
      exact fun hs => hs ha
    rw [if_neg (fun hc => hc.1 ha), List.filter_cons_of_neg (by simp [hn])]
    rfl
  · rw [List.filter_cons_of_pos (Track.isAssigned_iff.2 ha), List.filter_nil, firstPerHash]
    by_cases hs : t.hash ∈ placedHashes xs
    · rw [if_pos hs, if_neg (fun hc => hc.2 hs)]
      rfl
    · rw [if_neg hs, if_pos ⟨ha, hs⟩]
      rfl

/-! ## Positions -/

/-- A placed track with this hash stands before the position. -/
def IsTakenBefore (m : List Track) (i : Nat) (h : Hash) : Prop :=
  ∃ j < i, ∃ k ∈ m[j]?, k.slot ≠ 0 ∧ k.hash = h

/-- At the position stands a placed track, and no placed track before it has its hash. -/
def IsFirstPlaced (m : List Track) (i : Nat) : Prop :=
  ∃ k ∈ m[i]?, k.slot ≠ 0 ∧ ¬ IsTakenBefore m i k.hash

/-- At the position stands a placed track, but a placed track before it has its hash. -/
def IsConflicting (m : List Track) (i : Nat) : Prop :=
  ∃ k ∈ m[i]?, k.slot ≠ 0 ∧ IsTakenBefore m i k.hash

instance (m : List Track) (i : Nat) (h : Hash) : Decidable (IsTakenBefore m i h) := by
  unfold IsTakenBefore
  infer_instance

instance (m : List Track) : DecidablePred (IsFirstPlaced m) := fun i => by
  unfold IsFirstPlaced
  infer_instance

instance (m : List Track) : DecidablePred (IsConflicting m) := fun i => by
  unfold IsConflicting
  infer_instance

/-- The positions of the tracks that are emitted, in order. -/
def emittedPositions (m : List Track) : List Nat := (List.range m.length).filter (IsFirstPlaced m)

/-- The number of placed tracks that give way to an earlier one. -/
def conflictCount (m : List Track) : Nat := (List.range m.length).countP (IsConflicting m)

theorem isTakenBefore_append (hi : i ≤ xs.length) :
    IsTakenBefore (xs ++ ys) i h ↔ IsTakenBefore xs i h := by
  unfold IsTakenBefore
  refine exists_congr fun j => and_congr_right fun hj => ?_
  rw [List.getElem?_append_left (by omega)]

theorem isTakenBefore_length : IsTakenBefore xs xs.length h ↔ h ∈ placedHashes xs := by
  rw [mem_placedHashes]
  constructor
  · rintro ⟨j, -, k, hk, hs, he⟩
    exact ⟨k, List.mem_of_getElem? hk, hs, he⟩
  · rintro ⟨k, hm, hs, he⟩
    obtain ⟨j, hj⟩ := List.getElem?_of_mem hm
    obtain ⟨hlt, -⟩ := List.getElem?_eq_some_iff.1 hj
    exact ⟨j, hlt, k, hj, hs, he⟩

/-- What stands behind a position does not matter to it. -/
theorem isFirstPlaced_append (hi : i < xs.length) :
    IsFirstPlaced (xs ++ ys) i ↔ IsFirstPlaced xs i := by
  unfold IsFirstPlaced
  rw [List.getElem?_append_left hi]
  simp only [isTakenBefore_append (Nat.le_of_lt hi)]

theorem isConflicting_append (hi : i < xs.length) :
    IsConflicting (xs ++ ys) i ↔ IsConflicting xs i := by
  unfold IsConflicting
  rw [List.getElem?_append_left hi]
  simp only [isTakenBefore_append (Nat.le_of_lt hi)]

theorem isFirstPlaced_concat {t : Track} :
    IsFirstPlaced (xs ++ [t]) xs.length ↔ t.slot ≠ 0 ∧ t.hash ∉ placedHashes xs := by
  unfold IsFirstPlaced
  simp [isTakenBefore_append, isTakenBefore_length]

theorem isConflicting_concat {t : Track} :
    IsConflicting (xs ++ [t]) xs.length ↔ t.slot ≠ 0 ∧ t.hash ∈ placedHashes xs := by
  unfold IsConflicting
  simp [isTakenBefore_append, isTakenBefore_length]

/-- The positions picked in a list with one more track, if that makes no difference to the others. -/
theorem filter_range_succ {p q : Nat → Prop} [DecidablePred p] [DecidablePred q] {n : Nat}
    (hpq : ∀ i < n, p i ↔ q i) :
    (List.range (n + 1)).filter p = (List.range n).filter q ++ if p n then [n] else [] := by
  rw [List.range_succ, List.filter_append]
  congr 1
  · apply List.filter_congr
    intro i hi
    rw [decide_eq_decide]
    exact hpq i (List.mem_range.1 hi)
  · rw [List.filter_singleton, Bool.cond_decide]

/-- Positions picked in the front of a list are looked up there. -/
theorem filterMap_filter_range {p : Nat → Prop} [DecidablePred p] (xs ys : List Track) :
    ((List.range xs.length).filter p).filterMap (fun i => (xs ++ ys)[i]?) =
      ((List.range xs.length).filter p).filterMap fun i => xs[i]? := by
  apply List.filterMap_congr
  intro i hi
  rw [List.getElem?_append_left (List.mem_range.1 (List.mem_filter.1 hi).1)]

theorem emittedPositions_concat (xs : List Track) (t : Track) :
    emittedPositions (xs ++ [t]) =
      emittedPositions xs ++
        if t.slot ≠ 0 ∧ t.hash ∉ placedHashes xs then [xs.length] else [] := by
  unfold emittedPositions
  rw [List.length_append, List.length_singleton,
    filter_range_succ fun i hi => isFirstPlaced_append hi]
  simp only [isFirstPlaced_concat]

theorem conflictCount_concat (xs : List Track) (t : Track) :
    conflictCount (xs ++ [t]) =
      conflictCount xs + if t.slot ≠ 0 ∧ t.hash ∈ placedHashes xs then 1 else 0 := by
  unfold conflictCount
  rw [List.length_append, List.length_singleton, List.range_succ, List.countP_append,
    List.countP_singleton]
  congr 1
  · apply List.countP_congr
    intro i hi
    rw [decide_eq_true_eq, decide_eq_true_eq]
    exact isConflicting_append (List.mem_range.1 hi)
  · simp only [isConflicting_concat, decide_eq_true_eq]

/-- **The emitted tracks are those at the emitted positions**, in the order of the list. -/
theorem emittedTracks_eq_positions (m : List Track) :
    emittedTracks m = (emittedPositions m).filterMap fun i => m[i]? := by
  induction m using List.reverseRecOn with
  | nil => rfl
  | append_singleton xs t ih =>
    have hfront : (emittedPositions xs).filterMap (fun i => (xs ++ [t])[i]?) = emittedTracks xs := by
      rw [ih]
      exact filterMap_filter_range xs [t]
    rw [emittedTracks_concat, emittedPositions_concat, List.filterMap_append, hfront]
    congr 1
    split
    · rw [List.filterMap_cons, List.getElem?_concat_length]
      rfl
    · rfl

theorem isAssigned_eq_not (k : Track) : k.isAssigned = !decide (k.slot = 0) := decide_not

/-- **Every track is counted once**: as one without a placement, as one that gives way to an earlier
one, or as one that is emitted. -/
theorem length_eq_counts (m : List Track) :
    m.length = m.countP (fun k => k.slot = 0) + conflictCount m + (emittedTracks m).length := by
  induction m using List.reverseRecOn with
  | nil => rfl
  | append_singleton xs t ih =>
    rw [List.length_append, List.length_singleton, List.countP_append, List.countP_singleton,
      conflictCount_concat, emittedTracks_concat, List.length_append]
    by_cases ha : t.slot = 0
    · simp [ha]
      omega
    · by_cases hs : t.hash ∈ placedHashes xs
      · simp [ha, hs]
        omega
      · simp [ha, hs]
        omega

/-- The log counts what the selection leaves out, without a difference below zero. -/
theorem filterEvent_eq (m : List Track) :
    filterEvent m =
      .filteredTracks m.length (m.countP fun k => k.slot = 0) (conflictCount m)
        (emittedTracks m).length := by
  have hu : m.countP (fun k => !k.isAssigned) = m.countP fun k => k.slot = 0 := by
    apply List.countP_congr
    intro k _
    rw [isAssigned_eq_not, Bool.not_not]
  have hcounts := length_eq_counts m
  unfold filterEvent
  dsimp only
  rw [hu]
  congr 1
  omega

namespace Assembler

variable {a : Assembler} {r : Assembled} {t : FileTree} {m : MergedTracks}

theorem tracks_of_assemble (hm : (a.tracks.merge t).result = .ok m)
    (h : (a.assemble t).result = .ok r) : r.catalog.tracks = emittedTracks m.tracks := by
  obtain ⟨m', items, y, hm', -, -, rfl⟩ := of_assemble h
  rw [hm] at hm'
  cases hm'
  rfl

/-- What the selection left out is the last thing that is logged. -/
theorem getLast?_events_of_assemble (hm : (a.tracks.merge t).result = .ok m)
    (h : (a.assemble t).result = .ok r) :
    (a.assemble t).events.getLast? = some (filterEvent m.tracks) := by
  unfold assemble at h ⊢
  obtain ⟨m', hm', h⟩ := Traced.result_bind_eq_ok.1 h
  rw [hm] at hm'
  cases hm'
  obtain ⟨c, hc, -⟩ := Traced.result_bind_eq_ok.1 h
  rw [Traced.events_bind_of_ok hm, Traced.events_bind_of_ok hc, Traced.events_pure,
    List.append_nil]
  unfold assembleTracks at hc ⊢
  obtain ⟨u, hu, hc⟩ := Traced.result_bind_eq_ok.1 hc
  obtain ⟨aliases, ha, -⟩ := Traced.result_bind_eq_ok.1 hc
  have hnote : (Traced.note (filterEvent m.tracks) : Traced CatalogError Unit).result = .ok () :=
    rfl
  rw [Traced.events_bind_of_ok hu, Traced.events_bind_of_ok ha, Traced.events_bind_of_ok hnote,
    Traced.events_pure, List.append_nil, ← List.append_assoc, ← List.append_assoc]
  exact List.getLast?_concat

/-- A catalog finds the first placed track of the merged list that has the hash. -/
theorem get?_of_assemble (hm : (a.tracks.merge t).result = .ok m)
    (h : (a.assemble t).result = .ok r) (x : Hash) :
    r.catalog.get? x = m.tracks.find? fun k => k.isAssigned && k.hash = x := by
  rw [Catalog.get?, tracks_of_assemble hm h, find?_emittedTracks]

/-- **Just the first placed track of each hash is emitted.** The catalog's tracks are those at the
emitted positions of the merged list, in order. So each hash of a placed track is emitted once, a
track without a placement takes no other's place, primary tracks come before supplemental ones, and
the log tells how many tracks were left out for either reason. -/
theorem emits_first_placed_tracks (a : Assembler) (t : FileTree) (m : MergedTracks)
    (r : Assembled) (hm : (a.tracks.merge t).result = .ok m)
    (h : (a.assemble t).result = .ok r) :
    r.catalog.tracks = (emittedPositions m.tracks).filterMap (fun i => m.tracks[i]?) ∧
    (r.catalog.tracks.map Track.hash).Nodup ∧
    (∀ k ∈ m.tracks, k.slot ≠ 0 → (r.catalog.tracks.map Track.hash).count k.hash = 1) ∧
    (∀ before k after, m.tracks = before ++ k :: after → k.slot ≠ 0 →
      (∀ u ∈ before, u.hash = k.hash → u.slot = 0) → r.catalog.get? k.hash = some k) ∧
    (∀ primary, (a.tracks.primary.readAll t).result = .ok primary →
      ∀ k ∈ primary, k.slot ≠ 0 →
        ∃ k' ∈ primary, k'.slot ≠ 0 ∧ r.catalog.get? k.hash = some k') ∧
    ∃ unassigned conflicting,
      (a.assemble t).events.getLast? =
        some (.filteredTracks m.tracks.length unassigned conflicting
          r.catalog.tracks.length) ∧
      unassigned = m.tracks.countP (fun k => k.slot = 0) ∧
      conflicting = conflictCount m.tracks ∧
      m.tracks.length = unassigned + conflicting + r.catalog.tracks.length := by
  have htracks := tracks_of_assemble hm h
  have hnodup : (r.catalog.tracks.map Track.hash).Nodup := by
    rw [htracks]
    exact nodup_hash_emittedTracks _
  refine ⟨?_, hnodup, ?_, ?_, ?_, _, _, ?_, rfl, rfl, ?_⟩
  · rw [htracks]
    exact emittedTracks_eq_positions _
  · intro k hk hs
    have hsome : (Catalog.get? ⟨emittedTracks m.tracks, r.catalog.aliases⟩ k.hash).isSome :=
      isSome_get?_emittedTracks hk hs
    obtain ⟨k', hk'⟩ := Option.isSome_iff_exists.1 hsome
    rw [← htracks] at hk'
    have hmem := List.mem_map_of_mem (f := Track.hash) (Catalog.mem_of_get? hk')
    rw [Catalog.hash_of_get? hk'] at hmem
    exact List.count_eq_one_of_mem hnodup hmem
  · intro before k after he hs hbefore
    rw [get?_of_assemble hm h, he, List.find?_append]
    -- nothing in front of `k` is both placed and has its hash
    have hnone : before.find? (fun u => u.isAssigned && decide (u.hash = k.hash)) = none := by
      rw [List.find?_eq_none]
      intro u hu hc
      rw [Bool.and_eq_true, decide_eq_true_eq] at hc
      exact Track.isAssigned_iff.1 hc.1 (hbefore u hu hc.2)
    rw [hnone, Option.none_or, List.find?_cons_of_pos]
    rw [Bool.and_eq_true, decide_eq_true_eq]
    exact ⟨Track.isAssigned_iff.2 hs, rfl⟩
  · intro primary hp k hk hs
    obtain ⟨primary', hp', hprefix⟩ := TrackSources.exists_prefix_of_merge hm
    rw [hp] at hp'
    cases hp'
    obtain ⟨rest, hrest⟩ := hprefix
    -- the search ends among the primary tracks, with `k` at the latest
    have hsome : (primary.find? fun u => u.isAssigned && decide (u.hash = k.hash)).isSome := by
      rw [List.find?_isSome]
      refine ⟨k, hk, ?_⟩
      rw [Bool.and_eq_true, decide_eq_true_eq]
      exact ⟨Track.isAssigned_iff.2 hs, rfl⟩
    obtain ⟨k', hk'⟩ := Option.isSome_iff_exists.1 hsome
    have hplaced := List.find?_some hk'
    rw [Bool.and_eq_true] at hplaced
    refine ⟨k', List.mem_of_find?_eq_some hk', Track.isAssigned_iff.1 hplaced.1, ?_⟩
    rw [get?_of_assemble hm h, ← hrest, List.find?_append, hk', Option.some_or]
  · rw [getLast?_events_of_assemble hm h, filterEvent_eq, htracks]
  · rw [htracks]
    exact length_eq_counts _

namespace Shadowed

/-- One hash four times: first without a placement, then with three different ones, the last of
them in the supplemental source. -/
def tree : FileTree :=
  Repeated.tree.putFile ["tracks"] (Bytes.ofText
    ("aaaaaaaaaaaaaaaaaaaaaaaaaaaaaaaaaaaaaaaa|7|||1|0|||||draft|||||\n" ++
      "aaaaaaaaaaaaaaaaaaaaaaaaaaaaaaaaaaaaaaaa|8|||1|11|||||placed|||||\n" ++
      "aaaaaaaaaaaaaaaaaaaaaaaaaaaaaaaaaaaaaaaa|9|||1|12|||||late|||||\n")) |>.putFile ["more"]
    (Bytes.ofText "aaaaaaaaaaaaaaaaaaaaaaaaaaaaaaaaaaaaaaaa|10|||1|13|||||extra|||||\n")

/-- The sources in that tree. -/
def sources : Assembler :=
  { Repeated.sources with
    tracks := ⟨⟨⟨"tracks", 0⟩, 40⟩, some ⟨⟨⟨"more", 0⟩, 40⟩, none⟩⟩ }

/-- The tracks of both sources. -/
def merged : MergedTracks :=
  ⟨[⟨Repeated.taken, some 7, "draft", 0, 1, none, none⟩,
    ⟨Repeated.taken, some 8, "placed", 11, 1, none, none⟩,
    ⟨Repeated.taken, some 9, "late", 12, 1, none, none⟩,
    ⟨Repeated.taken, some 10, "extra", 13, 1, none, none⟩], []⟩

/-- What they are assembled to. -/
def assembled : Assembled :=
  ⟨⟨[⟨Repeated.taken, some 8, "placed", 11, 1, none, none⟩], [⟨Repeated.old, Repeated.taken⟩]⟩, []⟩

/-- The track behind the one without a placement is emitted, and two give way to it. -/
theorem placed_track_is_emitted :
    (sources.tracks.merge tree).result = .ok merged ∧
      (sources.assemble tree).result = .ok assembled ∧
      assembled.catalog.tracks = [1].filterMap (fun i => merged.tracks[i]?) ∧
      (sources.assemble tree).events.getLast? = some (.filteredTracks 4 1 2 1) := by
  have hm : (sources.tracks.merge tree).result = .ok merged := by decide +kernel
  have h : (sources.assemble tree).result = .ok assembled := by decide +kernel
  obtain ⟨htracks, -, -, -, -, u, c, hlog, rfl, rfl, -⟩ :=
    emits_first_placed_tracks sources tree merged assembled hm h
  have hpos : emittedPositions merged.tracks = [1] := by decide
  rw [hpos] at htracks
  exact ⟨hm, h, htracks, hlog⟩

end Shadowed

end Assembler

end TrackCatalog
