import TrackCatalog.Proofs.Assembly.Selection
import TrackCatalog.Proofs.Outcome

/-!
# Where aliases come from

An alias in a catalog goes back to one line of the reference source and to one entry of the index.

* `Resolution.ofReference?_eq_alias`: when a reference becomes an alias, and which.
* `AliasResolver.of_mem_aliases`: every alias that is resolved comes from some reference.
* `Assembler.result_assemble`: an assembly is a merge and what is made of the merged tracks.
* `Assembler.of_assemble`: what an assembled catalog is made of.
-/

namespace TrackCatalog

variable {index : IdentityIndex} {exclusion : ExclusionFlags} {r : Reference} {e : AliasEntry}

/-- A reference becomes an alias when its flags are fine and its id stands for another hash that is
placed. -/
theorem Resolution.ofReference?_eq_alias :
    Resolution.ofReference? index exclusion r = some (.alias e) ↔
      exclusion.excludes r.flags = false ∧ ∃ n, index.get? r.externalId = some n ∧
        n.hash ≠ r.hash ∧ n.slot ≠ Course.unassignedSlot ∧
        e = { aliased := r.hash, canonical := n.hash } := by
  unfold Resolution.ofReference?
  cases hx : exclusion.excludes r.flags with
  | true => simp
  | false =>
    cases hn : index.get? r.externalId with
    | none => simp
    | some n =>
      by_cases hh : n.hash = r.hash
      · simp [hh]
      · by_cases hs : n.slot = Course.unassignedSlot
        · simp [hh, hs]
        · simp [hh, hs, eq_comm (a := e)]

/-- Resolved aliases come from references of the source. -/
theorem AliasResolver.of_mem_aliases {x : AliasResolver} {path : String}
    {items : List (Item (Nat × Reference))} {y : ResolvedAliases}
    (h : x.resolveItems path items = .ok y) (he : e ∈ y.aliases) :
    ∃ line r, Except.ok (line, r) ∈ items ∧
      Resolution.ofReference? x.index x.exclusion r = some (.alias e) := by
  induction items generalizing y with
  | nil =>
    cases h
    simp at he
  | cons item rest ih =>
    -- whatever becomes of the first line, the aliases of the rest are looked up there
    have later : ∀ {z : ResolvedAliases}, x.resolveItems path rest = .ok z → e ∈ z.aliases →
        ∃ line r, Except.ok (line, r) ∈ item :: rest ∧
          Resolution.ofReference? x.index x.exclusion r = some (.alias e) := by
      intro z hz hez
      obtain ⟨line, r, hm, hr⟩ := ih hz hez
      exact ⟨line, r, List.mem_cons_of_mem _ hm, hr⟩
    cases item with
    | error _ => simp [resolveItems] at h
    | ok p =>
      obtain ⟨line, r⟩ := p
      rw [resolveItems] at h
      split at h
      · simp at h
      · next entry hr =>
        obtain ⟨z, hz, rfl⟩ := Except.map_eq_ok_iff.1 h
        rcases List.mem_cons.1 he with rfl | he
        · exact ⟨line, r, List.mem_cons_self, hr⟩
        · exact later hz he
      · obtain ⟨z, hz, rfl⟩ := Except.map_eq_ok_iff.1 h
        exact later hz he
      · exact later h he

/-- **An assembly is a merge and what is made of the merged tracks.** -/
theorem Assembler.result_assemble (a : Assembler) (t : FileTree) :
    (a.assemble t).result = (a.tracks.merge t).result.bind fun m =>
      (a.assembleTracks m.tracks t).result.map fun c => ⟨c, m.warnings⟩ := by
  unfold Assembler.assemble
  rw [Traced.result_bind]
  congr 1
  funext m
  rw [Traced.result_bind]
  cases (a.assembleTracks m.tracks t).result <;> rfl

/-- **What an assembled catalog is made of**: the tracks picked from the merged list, and the
references resolved against the index of that same list. -/
theorem Assembler.of_assemble {a : Assembler} {t : FileTree} {r : Assembled}
    (h : (a.assemble t).result = .ok r) :
    ∃ m items y, (a.tracks.merge t).result = .ok m ∧ (a.references.records t).result = .ok items ∧
      AliasResolver.resolveItems ⟨.ofTracks m.tracks, a.exclusion⟩ a.references.path items = .ok y ∧
      r = ⟨⟨emittedTracks m.tracks, y.aliases⟩, m.warnings⟩ := by
  simp only [Assembler.assemble, Assembler.assembleTracks, AliasResolver.resolve,
    Traced.result_bind_eq_ok, Traced.result_note, Traced.result_ofExcept, Traced.result_pure] at h
  obtain ⟨m, hm, c, ⟨_, -, aliases, ⟨items, hi, y, hy, _, -, ha⟩, _, -, hc⟩, hr⟩ := h
  cases ha
  cases hc
  cases hr
  exact ⟨m, items, y, hm, hi, hy, rfl⟩

end TrackCatalog
