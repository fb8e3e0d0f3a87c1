import TrackCatalog.Proofs.Assembly.Emission

/-!
# A supplemental source only adds

Two runs are compared, one without a supplemental source and one with it. The merged list of the
second continues that of the first, and each later stage is followed along this: the index knows
what it knew (`IdentityIndex.get?_ofTracks_append`), so every reference that was resolved is
resolved alike (`AliasResolver.resolveItems_of_le`), and the emitted tracks go on where they ended.

* `Assembler.assemble_eq_ok`: an assembler yields a catalog when its parts do.
* `Assembler.supplemental_source_only_adds`: what the second run keeps of the first.
-/

namespace TrackCatalog

variable {x y : IdentityIndex} {e : UInt32} {exclusion : ExclusionFlags}

namespace IdentityIndex

/-- **The index of a longer list** knows what the index of its front knows, then the rest. -/
theorem get?_ofTracks_append (front rest : List Track) (e : UInt32) :
    (ofTracks (front ++ rest)).get? e =
      ((ofTracks front).get? e).or ((ofTracks rest).get? e) := by
  rw [get?_ofTracks, get?_ofTracks, get?_ofTracks, List.find?_append, Option.map_or]

/-- The index `y` knows all that `x` knows. -/
def Le (x y : IdentityIndex) : Prop := ∀ e n, x.get? e = some n → y.get? e = some n

theorem le_ofTracks_append (front rest : List Track) :
    (ofTracks front).Le (ofTracks (front ++ rest)) := by
  intro e n hn
  rw [get?_ofTracks_append, hn, Option.some_or]

end IdentityIndex

/-- What becomes of a reference stays, when the index comes to know more. -/
theorem Resolution.ofReference?_of_le {r : Reference} {z : Resolution} (hle : x.Le y)
    (h : ofReference? x exclusion r = some z) : ofReference? y exclusion r = some z := by
  unfold ofReference? at h ⊢
  by_cases hx : exclusion.excludes r.flags
  · rw [if_pos hx] at h ⊢
    exact h
  · rw [if_neg hx] at h ⊢
    cases hn : x.get? r.externalId with
    | none =>
      -- an unknown id would have stopped the first run
      rw [hn] at h
      cases h
    | some n =>
      rw [hn] at h
      rw [hle _ n hn]
      exact h

/-- **What was resolved is resolved alike**, when the index comes to know more. -/
theorem AliasResolver.resolveItems_of_le {path : String} {items : List (Item (Nat × Reference))}
    {z : ResolvedAliases} (hle : x.Le y) (h : resolveItems ⟨x, exclusion⟩ path items = .ok z) :
    resolveItems ⟨y, exclusion⟩ path items = .ok z := by
  induction items generalizing z with
  | nil => exact h
  | cons item rest ih =>
    cases item with
    | error e => cases h
    | ok p =>
      obtain ⟨line, r⟩ := p
      unfold resolveItems at h ⊢
      dsimp only at h ⊢
      cases hr : Resolution.ofReference? x exclusion r with
      | none =>
        rw [hr] at h
        cases h
      | some c =>
        rw [hr] at h
        rw [Resolution.ofReference?_of_le hle hr]
        -- an alias or an excluded reference is noted in front of the rest, the others are not
        rcases c with entry | _ | _ | _
        · obtain ⟨w, hw, rfl⟩ := Except.map_eq_ok_iff.1 h
          exact Except.map_eq_ok_iff.2 ⟨w, ih hw, rfl⟩
        · obtain ⟨w, hw, rfl⟩ := Except.map_eq_ok_iff.1 h
          exact Except.map_eq_ok_iff.2 ⟨w, ih hw, rfl⟩
        · exact ih h
        · exact ih h

namespace Catalog

theorem get?_of_prefix {c d : Catalog} {h : Hash} {k : Track} (hcd : c.tracks <+: d.tracks)
    (hk : c.get? h = some k) : d.get? h = some k := by
  obtain ⟨rest, hrest⟩ := hcd
  unfold get? at hk ⊢
  rw [← hrest, List.find?_append, hk, Option.some_or]

end Catalog

namespace Assembler

variable {a : Assembler} {t : FileTree}

/-- **An assembler yields a catalog** when it can read and merge the tracks, read the references,
and resolve them. -/
theorem assemble_eq_ok {m : MergedTracks} {items : List (Item (Nat × Reference))}
    {z : ResolvedAliases} (hm : (a.tracks.merge t).result = .ok m)
    (hi : (a.references.records t).result = .ok items)
    (hz : AliasResolver.resolveItems ⟨.ofTracks m.tracks, a.exclusion⟩ a.references.path items =
      .ok z) :
    (a.assemble t).result = .ok ⟨⟨emittedTracks m.tracks, z.aliases⟩, m.warnings⟩ := by
  unfold assemble assembleTracks AliasResolver.resolve
  simp only [Traced.result_bind, Traced.result_note, Traced.result_ofExcept, Traced.result_pure, hm,
    hi, hz, Except.bind]

/-- **A supplemental source only adds.** If a catalog can be assembled without it and it can be
read, then the catalog can be assembled with it, without a warning. The aliases are the same and
lead to the same tracks, the tracks are the same with others behind them, and what was found under
its hash is found there still. -/
theorem supplemental_source_only_adds (primary : TrackSource) (references : ReferenceSource)
    (exclusion : ExclusionFlags) (s : SupplementalSource) (t : FileTree) (extra : List Track)
    (r : Assembled) (hs : (s.source.readAll t).result = .ok extra)
    (h : (assemble ⟨⟨primary, none⟩, references, exclusion⟩ t).result = .ok r) :
    ∃ r', (assemble ⟨⟨primary, some s⟩, references, exclusion⟩ t).result = .ok r' ∧
      r'.warnings = [] ∧
      r'.catalog.aliases = r.catalog.aliases ∧
      r.catalog.tracks <+: r'.catalog.tracks ∧
      (∀ x k, r.catalog.get? x = some k → r'.catalog.get? x = some k) ∧
      ∀ e ∈ r'.catalog.aliases, ∃ k, r.catalog.get? e.canonical = some k ∧
        r'.catalog.get? e.canonical = some k := by
  obtain ⟨m, items, z, hm, hi, hz, rfl⟩ := of_assemble h
  -- without a supplemental source the merged tracks are the primary ones
  rw [TrackSources.result_merge] at hm
  obtain ⟨tracks, hp, hm⟩ := Except.bind_eq_ok_iff.1 hm
  cases hm
  -- with one they go on behind them
  obtain ⟨rest, hrest⟩ := Merge.prefix_ofTracks tracks extra
  have hm' : (TrackSources.merge ⟨primary, some s⟩ t).result = .ok ⟨tracks ++ rest, []⟩ := by
    rw [TrackSources.result_merge]
    refine Except.bind_eq_ok_iff.2 ⟨tracks, hp, ?_⟩
    dsimp only
    rw [TrackSources.result_addSupplemental, hs, hrest]
  have hz' := AliasResolver.resolveItems_of_le (IdentityIndex.le_ofTracks_append tracks rest) hz
  have hprefix : emittedTracks tracks <+: emittedTracks (tracks ++ rest) := by
    rw [emittedTracks_append]
    exact List.prefix_append _ _
  have hget : ∀ x k, Catalog.get? ⟨emittedTracks tracks, z.aliases⟩ x = some k →
      Catalog.get? ⟨emittedTracks (tracks ++ rest), z.aliases⟩ x = some k :=
    fun x k hk => Catalog.get?_of_prefix hprefix hk
  refine ⟨_, assemble_eq_ok hm' hi hz', rfl, rfl, hprefix, hget, ?_⟩
  intro e he
  obtain ⟨k, hk⟩ := Option.isSome_iff_exists.1 ((closed_of_assemble h).present e he)
  exact ⟨k, hk, hget _ k hk⟩

namespace Extra

/-- A supplemental source that collides with the primary one: by the id that the reference names,
by the hash of its track, and by both. -/
def tree : FileTree :=
  Repeated.tree.putFile ["more"] (Bytes.ofText
    ("bbbbbbbbbbbbbbbbbbbbbbbbbbbbbbbbbbbbbbbb|8|||1|13|||||other|||||\n" ++
      "aaaaaaaaaaaaaaaaaaaaaaaaaaaaaaaaaaaaaaaa|9|||1|14|||||again|||||\n" ++
      "aaaaaaaaaaaaaaaaaaaaaaaaaaaaaaaaaaaaaaaa|8|||1|0|||||draft|||||\n"))

/-- The supplemental source in that tree. -/
def source : SupplementalSource := ⟨⟨⟨"more", 0⟩, 40⟩, none⟩

/-- Its tracks. -/
def tracks : List Track :=
  [⟨Repeated.old, some 8, "other", 13, 1, none, none⟩,
    ⟨Repeated.taken, some 9, "again", 14, 1, none, none⟩,
    ⟨Repeated.taken, some 8, "draft", 0, 1, none, none⟩]

/-- The alias and the track of the primary source stay through all collisions. -/
theorem collisions_change_nothing :
    (source.source.readAll tree).result = .ok tracks ∧
      (Repeated.sources.assemble tree).result = .ok Repeated.assembled ∧
      ∃ r, (assemble ⟨⟨⟨⟨"tracks", 0⟩, 40⟩, some source⟩, ⟨⟨"references", 0⟩⟩, .stock⟩ tree).result =
          .ok r ∧ r.catalog.aliases = [⟨Repeated.old, Repeated.taken⟩] ∧
        Repeated.assembled.catalog.tracks <+: r.catalog.tracks := by
  have hs : (source.source.readAll tree).result = .ok tracks := by decide +kernel
  have h : (Repeated.sources.assemble tree).result = .ok Repeated.assembled := by decide +kernel
  obtain ⟨r, hr, -, haliases, htracks, -⟩ := supplemental_source_only_adds ⟨⟨"tracks", 0⟩, 40⟩
    ⟨⟨"references", 0⟩⟩ .stock source tree tracks Repeated.assembled hs h
  exact ⟨hs, h, r, hr, haliases, htracks⟩

end Extra

end Assembler

end TrackCatalog
