import TrackCatalog.Pipeline.Run
import TrackCatalog.Proofs.Emit.ReadBack

/-!
# Both layouts carry the same data

What is assembled does not depend on where it goes. A single file has the tracks in a list, where
the first of a hash counts; a sharded output has them by name, where the last one written would.
Both say the same because an assembled catalog has each hash once.

* `PipelineConfig.yields_run`: the two halves of a run.
* `PipelineConfig.layouts_carry_same_data`: what one run writes as a file and another as shards.
-/

namespace TrackCatalog

/-- **An assembled catalog has each hash once.** -/
theorem Assembler.nodup_hash_of_assemble {a : Assembler} {t : FileTree} {r : Assembled}
    (h : (a.assemble t).result = .ok r) : (r.catalog.tracks.map Track.hash).Nodup := by
  obtain ⟨m, items, y, -, -, -, rfl⟩ := of_assemble h
  exact nodup_hash_emittedTracks m.tracks

namespace PipelineConfig

variable {c : PipelineConfig} {order : ListingOrder} {t t' : FileTree} {r : BuildReport}

theorem yields_run (h : (c.run order).Yields t r t') :
    ∃ x, (c.assembler.assemble t).result = .ok x ∧
      (c.emit order x.catalog).Yields t r.summary t' ∧ r.warnings = x.warnings ∧
      r.destination = c.destination := by
  rw [run, Task.yields_bind] at h
  obtain ⟨x, t₁, hlook, h⟩ := h
  obtain ⟨hx, rfl⟩ := Task.yields_look.1 hlook
  rw [Task.yields_bind] at h
  obtain ⟨s, t₂, hemit, h⟩ := h
  obtain ⟨rfl, rfl⟩ := Task.yields_pure.1 h
  exact ⟨x, hx, hemit, rfl, rfl⟩

/-- A run whose catalog cannot be assembled ends there, with nothing written. -/
theorem run_of_assemble_eq_error {e : CatalogError}
    (h : (c.assembler.assemble t).result = .error e) :
    ((c.run order).run t).result = .error e ∧ ((c.run order).run t).tree = t := by
  rw [run, Task.run_bind, Task.run_look]
  simp only [h, and_self]

/-- Where the catalog goes has no part in what is assembled. -/
theorem assembler_congr {a b : PipelineConfig} (h : { a with output := b.output } = b) :
    a.assembler = b.assembler := by
  rw [← h]
  rfl

/-- A single-file run leaves the assembled catalog at its destination. -/
theorem readBlob_of_run_single (hl : c.output.layout = .single)
    (h : (c.run order).Yields t r t') :
    ∃ x, (c.assembler.assemble t).result = .ok x ∧ r.summary = x.catalog.summary ∧
      r.warnings = x.warnings ∧ readBlob .catalog t' r.destination = .ok x.catalog := by
  obtain ⟨x, hx, hemit, hw, hd⟩ := yields_run h
  rw [emit, hl] at hemit
  obtain ⟨hs, hread⟩ := readFile_of_writeCatalog hemit
  refine ⟨x, hx, hs, hw, ?_⟩
  rw [hd]
  exact readBlob_of_readFile Codec.catalog_roundTrips Codec.catalog_shortFits hread

/-- A sharded run leaves the assembled catalog below its output directory. -/
theorem holdsShards_of_run_sharded (hl : c.output.layout = .sharded)
    (h : (c.run order).Yields t r t') :
    ∃ x l, (c.assembler.assemble t).result = .ok x ∧ r.summary = x.catalog.summary ∧
      r.warnings = x.warnings ∧ t'.HoldsShards c.output.dir l x.catalog := by
  obtain ⟨x, hx, hemit, hw, -⟩ := yields_run h
  have hd : c.destination = c.output.dir := by rw [destination, hl]
  rw [emit, hl, hd] at hemit
  obtain ⟨hs, t₁, t₂, t₃, l, hst⟩ := stages_of_writeSharded hemit
  exact ⟨x, l, hx, hs, hw, hst.holdsShards (Assembler.nodup_hash_of_assemble hx)⟩

/-- **Both layouts carry the same data.** Two configurations that differ only in their output fail
to assemble alike. When both runs succeed, they report the same, and the shards are just the tracks
that the single file finds by their hashes, beside the same aliases. -/
theorem layouts_carry_same_data {a b : PipelineConfig} (hab : { a with output := b.output } = b)
    (ha : a.output.layout = .single) (hb : b.output.layout = .sharded)
    (order order' : ListingOrder) (t : FileTree) :
    (∀ e, (a.assembler.assemble t).result = .error e ↔
      (b.assembler.assemble t).result = .error e) ∧
    (∀ e, (a.assembler.assemble t).result = .error e →
      ((a.run order).run t).result = .error e ∧ ((b.run order').run t).result = .error e) ∧
    ∀ r₁ t₁ r₂ t₂, (a.run order).Yields t r₁ t₁ → (b.run order').Yields t r₂ t₂ →
      r₁.summary = r₂.summary ∧ r₁.warnings = r₂.warnings ∧
      ∃ c, readBlob .catalog t₁ r₁.destination = .ok c ∧
        (∀ h, (∃ n, t₂.open? (shardPath b.output.dir h) = .ok n) ↔ ∃ k, c.get? h = some k) ∧
        (∀ h k, c.get? h = some k → readBlob .track t₂ (shardPath b.output.dir h) = .ok k) ∧
        readBlob .aliases t₂ (aliasFile b.output.dir) = .ok c.aliases := by
  have hasm := assembler_congr hab
  refine ⟨fun e => by rw [hasm], fun e he => ?_, fun r₁ t₁ r₂ t₂ h₁ h₂ => ?_⟩
  · have he' := he
    rw [hasm] at he'
    exact ⟨(run_of_assemble_eq_error he).1, (run_of_assemble_eq_error he').1⟩
  · obtain ⟨x, hx, hs, hw, hread⟩ := readBlob_of_run_single ha h₁
    obtain ⟨y, l, hy, hs', hw', hold⟩ := holdsShards_of_run_sharded hb h₂
    -- both runs read the same sources in the same tree
    obtain rfl : x = y := by
      rw [hasm, hy] at hx
      cases hx
      rfl
    refine ⟨hs.trans hs'.symm, hw.trans hw'.symm, x.catalog, hread, fun h => ⟨?_, ?_⟩,
      fun h k hk => hold.readBlob_track hk, hold.readBlob_aliases⟩
    · rintro ⟨n, hn⟩
      exact Option.isSome_iff_exists.1 (hold.isSome_get?_of_open? hn)
    · rintro ⟨k, hk⟩
      exact hold.exists_open? hk

namespace Both

/-- A configuration for the sources with a repeated hash. -/
def single : PipelineConfig :=
  ⟨⟨⟨"tracks", 0⟩, none, ⟨"references", 0⟩⟩, ⟨40⟩, ⟨"ZPd"⟩, ⟨"out", .single, "catalog.bin"⟩⟩

/-- The same sources, to be written as shards. -/
def sharded : PipelineConfig := { single with output := ⟨"shards", .sharded, "catalog.bin"⟩ }

/-- The two runs succeed, and their outputs have the same tracks. -/
theorem shards_match_file :
    { single with output := sharded.output } = sharded ∧ single.output.layout = .single ∧
      sharded.output.layout = .sharded ∧
      ∃ t₁ t₂, (single.run .stored).Yields Assembler.Repeated.tree
          ⟨⟨1, 1⟩, [], "out/catalog.bin"⟩ t₁ ∧
        (sharded.run .stored).Yields Assembler.Repeated.tree ⟨⟨1, 1⟩, [], "shards"⟩ t₂ ∧
        ∃ c, readBlob .catalog t₁ "out/catalog.bin" = .ok c ∧
          ∀ h, (∃ n, t₂.open? (shardPath "shards" h) = .ok n) ↔ ∃ k, c.get? h = some k :=
  have h₁ := Task.yields_of_result_eq_ok (x := single.run .stored)
    (t := Assembler.Repeated.tree) (a := ⟨⟨1, 1⟩, [], "out/catalog.bin"⟩) (by decide +kernel)
  have h₂ := Task.yields_of_result_eq_ok (x := sharded.run .stored)
    (t := Assembler.Repeated.tree) (a := ⟨⟨1, 1⟩, [], "shards"⟩) (by decide +kernel)
  have ⟨_, _, c, hread, hexists, _⟩ := (layouts_carry_same_data (a := single) (b := sharded) rfl rfl
    rfl .stored .stored Assembler.Repeated.tree).2.2 _ _ _ _ h₁ h₂
  ⟨rfl, rfl, rfl, _, _, h₁, h₂, c, hread, hexists⟩

end Both

end PipelineConfig

end TrackCatalog
