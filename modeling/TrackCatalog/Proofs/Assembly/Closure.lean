import TrackCatalog.Proofs.Assembly.Resolution

/-!
# Aliases lead to emitted tracks

An alias is resolved against the index, which remembers the first track of each external id, placed
or not. The tracks of a catalog are picked by another rule, the first placed track of each hash. A
canonical hash survives that rule because the index entry it comes from is placed.

* `Catalog.Closed`: every alias leads from one hash to another one that has a placed track.
* `Catalog.Closed.resolve?_eq_none_iff`, `resolve?_hash`: in a closed catalog one step of
  resolution is enough.
* `Assembler.closed_of_assemble`: every assembled catalog is closed.
* `Assembler.aliases_lead_to_emitted_tracks`: all of this for what an assembler yields.
-/

namespace TrackCatalog

namespace Catalog

/-- Every alias leads from one hash to another one, under which there is a placed track. -/
structure Closed (c : Catalog) : Prop where
  placed : ∀ t ∈ c.tracks, t.slot ≠ Course.unassignedSlot
  distinct : ∀ e ∈ c.aliases, e.aliased ≠ e.canonical
  present : ∀ e ∈ c.aliases, (c.get? e.canonical).isSome

variable {c : Catalog} {h : Hash} {t : Track}

theorem hash_of_get? (ht : c.get? h = some t) : t.hash = h := by simpa using List.find?_some ht

theorem mem_of_get? (ht : c.get? h = some t) : t ∈ c.tracks := List.mem_of_find?_eq_some ht

theorem get?_eq_none_iff : c.get? h = none ↔ ∀ t ∈ c.tracks, t.hash ≠ h := by
  simp [get?, List.find?_eq_none]

theorem canonical?_eq_none_iff : c.canonical? h = none ↔ ∀ e ∈ c.aliases, e.aliased ≠ h := by
  simp [canonical?, List.find?_eq_none]

theorem exists_of_canonical? {k : Hash} (hk : c.canonical? h = some k) :
    ∃ e ∈ c.aliases, e.aliased = h ∧ e.canonical = k := by
  rw [canonical?, Option.map_eq_some_iff] at hk
  obtain ⟨e, he, rfl⟩ := hk
  exact ⟨e, List.mem_of_find?_eq_some he, by simpa using List.find?_some he, rfl⟩

/-- A track is found under its own hash directly, not by an alias. -/
theorem resolve?_of_get? (ht : c.get? h = some t) : c.resolve? h = some t := by
  simp [resolve?, ht]

/-- Whatever a hash resolves to is found under its own hash. -/
theorem get?_hash_of_resolve? (ht : c.resolve? h = some t) : c.get? t.hash = some t := by
  unfold resolve? at ht
  cases hg : c.get? h with
  | some u =>
    obtain rfl : u = t := by simpa [hg] using ht
    rw [hash_of_get? hg]
    exact hg
  | none =>
    rw [hg] at ht
    obtain ⟨k, -, hk⟩ := Option.bind_eq_some_iff.1 ht
    rw [hash_of_get? hk]
    exact hk

/-- **In a closed catalog only unknown hashes do not resolve.** -/
theorem Closed.resolve?_eq_none_iff (hc : c.Closed) :
    c.resolve? h = none ↔ (∀ t ∈ c.tracks, t.hash ≠ h) ∧ ∀ e ∈ c.aliases, e.aliased ≠ h := by
  rw [← get?_eq_none_iff, ← canonical?_eq_none_iff]
  unfold resolve?
  cases hg : c.get? h with
  | some t => simp
  | none =>
    cases hk : c.canonical? h with
    | none => simp
    | some k =>
      obtain ⟨e, he, -, rfl⟩ := exists_of_canonical? hk
      have := hc.present e he
      simp [Option.isSome_iff_ne_none.1 this]

end Catalog

namespace Assembler

variable {a : Assembler} {t : FileTree} {r : Assembled}

/-- A placed track has an emitted track under its hash, itself or an earlier one. -/
theorem isSome_get?_emittedTracks {tracks : List Track} {aliases : List AliasEntry} {k : Track}
    (hk : k ∈ tracks) (hs : k.slot ≠ Course.unassignedSlot) :
    (Catalog.get? ⟨emittedTracks tracks, aliases⟩ k.hash).isSome := by
  rw [Catalog.get?, find?_emittedTracks, List.find?_isSome]
  exact ⟨k, hk, by simp [Track.isAssigned_iff.2 hs]⟩

/-- **An assembled catalog is closed.** -/
theorem closed_of_assemble (h : (a.assemble t).result = .ok r) : r.catalog.Closed := by
  obtain ⟨m, items, y, -, -, hy, rfl⟩ := of_assemble h
  -- an alias remembers the hash of a placed track of the merged list
  have source : ∀ e ∈ y.aliases, e.aliased ≠ e.canonical ∧
      ∃ k ∈ m.tracks, k.slot ≠ Course.unassignedSlot ∧ k.hash = e.canonical := by
    intro e he
    obtain ⟨line, ref, -, hr⟩ := AliasResolver.of_mem_aliases hy he
    obtain ⟨-, n, hn, hne, hs, rfl⟩ := Resolution.ofReference?_eq_alias.1 hr
    obtain ⟨k, hk, -, rfl⟩ := IdentityIndex.exists_of_get?_ofTracks hn
    exact ⟨hne.symm, k, hk, hs, rfl⟩
  refine ⟨fun k hk => ?_, fun e he => (source e he).1, fun e he => ?_⟩
  · exact Track.isAssigned_iff.1 (mem_of_mem_emittedTracks hk).2
  · obtain ⟨-, k, hk, hs, hh⟩ := source e he
    rw [← hh]
    exact isSome_get?_emittedTracks hk hs

/-- **Aliases lead to emitted tracks.** In an assembled catalog every alias names two different
hashes, the canonical one is that of a placed track, and the aliased one resolves. A hash fails to
resolve only if it is neither that of an emitted track nor aliased, and what a hash resolves to
resolves to itself. -/
theorem aliases_lead_to_emitted_tracks (a : Assembler) (t : FileTree) (r : Assembled)
    (h : (a.assemble t).result = .ok r) :
    (∀ e ∈ r.catalog.aliases,
      e.aliased ≠ e.canonical ∧
      (∃ k, r.catalog.get? e.canonical = some k ∧ k.hash = e.canonical ∧ k.slot ≠ 0) ∧
      (r.catalog.resolve? e.aliased).isSome) ∧
    (∀ x, r.catalog.resolve? x = none ↔
      (∀ k ∈ r.catalog.tracks, k.hash ≠ x) ∧ ∀ e ∈ r.catalog.aliases, e.aliased ≠ x) ∧
    ∀ x k, r.catalog.resolve? x = some k → r.catalog.resolve? k.hash = some k := by
  have hc := closed_of_assemble h
  refine ⟨fun e he => ⟨hc.distinct e he, ?_, ?_⟩, fun x => hc.resolve?_eq_none_iff, ?_⟩
  · obtain ⟨k, hk⟩ := Option.isSome_iff_exists.1 (hc.present e he)
    exact ⟨k, hk, Catalog.hash_of_get? hk, hc.placed k (Catalog.mem_of_get? hk)⟩
  · rw [Option.isSome_iff_ne_none, ne_eq, hc.resolve?_eq_none_iff]
    exact fun hn => hn.2 e he rfl
  · intro x k hk
    exact Catalog.resolve?_of_get? (Catalog.get?_hash_of_resolve? hk)

namespace Repeated

/-- A hash of two tracks. -/
def taken : Hash := ⟨List.replicate 20 0xAA, by decide⟩

/-- A hash that was superseded. -/
def old : Hash := ⟨List.replicate 20 0xBB, by decide⟩

/-- Two tracks with one hash, and a reference to the id of the second. -/
def tree : FileTree :=
  (FileTree.empty.putFile ["tracks"] (Bytes.ofText
    ("aaaaaaaaaaaaaaaaaaaaaaaaaaaaaaaaaaaaaaaa|7|||1|11|||||first|||||\n" ++
      "aaaaaaaaaaaaaaaaaaaaaaaaaaaaaaaaaaaaaaaa|8|||1|12|||||second|||||\n"))).putFile
    ["references"] (Bytes.ofText "bbbbbbbbbbbbbbbbbbbbbbbbbbbbbbbbbbbbbbbb|8||||\n")

/-- The sources in that tree. -/
def sources : Assembler := ⟨⟨⟨⟨"tracks", 0⟩, 40⟩, none⟩, ⟨⟨"references", 0⟩⟩, .stock⟩

/-- What they are assembled to: the indexed track gives way to the other one. -/
def assembled : Assembled :=
  ⟨⟨[⟨taken, some 7, "first", 11, 1, none, none⟩], [⟨old, taken⟩]⟩, []⟩

/-- The alias of a track that is left out still leads to a track. -/
theorem alias_leads_to_first_track :
    (sources.assemble tree).result = .ok assembled ∧
      ∃ k, assembled.catalog.get? taken = some k ∧ k.hash = taken ∧ k.slot ≠ 0 :=
  have h : (sources.assemble tree).result = .ok assembled := by decide +kernel
  ⟨h, ((aliases_lead_to_emitted_tracks sources tree assembled h).1 ⟨old, taken⟩ (by decide)).2.1⟩

end Repeated

end Assembler

end TrackCatalog
