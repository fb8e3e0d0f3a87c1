import TrackCatalog.Proofs.Assembly.Merging
import TrackCatalog.Proofs.Emit.Again
import TrackCatalog.Proofs.Pipeline.Layouts
import TrackCatalog.Proofs.Source.Lines

/-!
# Running a second time

A run changes the tree that the next one reads. When the output goes into a directory that no input
path enters, the next run finds the same sources, a missing one still missing, so it assembles the
same catalog and writes what stands there already.

* `Assembler.assemble_congr`: what an assembly reads of a tree.
* `PipelineConfig.sameOutside_emit`, `PipelineConfig.emit_again`: what writing leaves alone, and
  writing a second time.
* `PipelineConfig.run_again_changes_nothing`: the second run.
-/

namespace TrackCatalog

variable {t t' : FileTree} {name : String}

/-! ## What is read -/

/-- A source that looks the same in two trees reads the same. -/
theorem DelimitedSource.items_congr (s : DelimitedSource)
    (h : (t'.open? s.path).map Node.shape = (t.open? s.path).map Node.shape) :
    s.items t' = s.items t := by
  unfold items
  generalize t'.open? s.path = x' at h
  generalize t.open? s.path = x at h
  rcases x' with e' | n' <;> rcases x with e | n
  · cases h
    rfl
  · cases h
  · cases h
  · -- of a file the bytes count, and of a directory nothing but that it is one
    cases n' <;> cases n <;> cases h <;> rfl

theorem TrackSource.readAll_congr (s : TrackSource) (h : s.source.items t' = s.source.items t) :
    s.readAll t' = s.readAll t := by
  unfold readAll records
  rw [h]

namespace Assembler

/-- The files that an assembly reads. -/
def sources (a : Assembler) : List DelimitedSource :=
  a.tracks.primary.source :: a.references.source ::
    (a.tracks.supplemental.map fun s => s.source.source).toList

/-- **An assembly depends on a tree by its sources alone.** -/
theorem assemble_congr (a : Assembler) (h : ∀ s ∈ a.sources, s.items t' = s.items t) :
    a.assemble t' = a.assemble t := by
  obtain ⟨⟨primary, supplemental⟩, references, exclusion⟩ := a
  obtain ⟨hprimary, hreferences, hsupplemental⟩ :
      primary.source.items t' = primary.source.items t ∧
        references.source.items t' = references.source.items t ∧
        ∀ s, supplemental = some s → s.source.source.items t' = s.source.source.items t :=
    ⟨h _ (by simp [sources]), h _ (by simp [sources]), fun s hs => h _ (by simp [sources, hs])⟩
  have hmerge : TrackSources.merge ⟨primary, supplemental⟩ t' =
      TrackSources.merge ⟨primary, supplemental⟩ t := by
    unfold TrackSources.merge
    rw [primary.readAll_congr hprimary]
    cases supplemental with
    | none => rfl
    | some s =>
      simp only [TrackSources.addSupplemental, s.source.readAll_congr (hsupplemental s rfl)]
  unfold assemble assembleTracks AliasResolver.resolve ReferenceSource.records
  rw [hmerge, hreferences]

end Assembler

namespace PipelineConfig

variable {c : PipelineConfig} {order order' : ListingOrder} {r : BuildReport} {s : EmitSummary}
  {k : Catalog}

/-- The paths that a run reads from. -/
def inputPaths (c : PipelineConfig) : List String :=
  c.sources.primary.path :: c.sources.aliases.path ::
    (c.sources.supplemental.map OptionalSourceConfig.path).toList

theorem path_mem_inputPaths {s : DelimitedSource} (h : s ∈ c.assembler.sources) :
    s.path ∈ c.inputPaths := by
  simp only [Assembler.sources, assembler, List.mem_cons, Option.mem_toList, Option.map_map,
    Option.map_eq_some_iff] at h
  rcases h with rfl | rfl | ⟨o, ho, rfl⟩
  · exact List.mem_cons_self
  · exact List.mem_cons_of_mem _ List.mem_cons_self
  · refine List.mem_cons_of_mem _ (List.mem_cons_of_mem _ ?_)
    rw [ho]
    exact List.mem_singleton_self _

/-- A tree from which a relative primary source could be read has its home. -/
theorem isDir_home {x : Assembled} {n : String} (h : (c.assembler.assemble t).result = .ok x)
    (hp : Path.Enters c.sources.primary.path n) : t.IsDir t.home := by
  obtain ⟨m, -, -, hm, -⟩ := Assembler.of_assemble h
  obtain ⟨primary, hread, -⟩ := TrackSources.exists_prefix_of_merge hm
  obtain ⟨bytes, hopen, -⟩ := TrackSource.readAll_eq_ok_iff.1 hread
  obtain ⟨l, hl, -⟩ := FileTree.open?_eq_ok.1 hopen
  change t.find c.sources.primary.path = .ok l at hl
  have horigin := FileTree.origin_of_enters hp t
  obtain ⟨rest, hparts, -, -⟩ := hp
  unfold FileTree.find at hl
  split at hl
  · cases hl
  · rw [horigin, hparts] at hl
    obtain ⟨d, hstep, -⟩ := FileTree.locate_cons_eq_ok.1 hl
    exact (FileTree.step_eq_ok.1 hstep).1

/-! ## What is written -/

/-- **Writing changes nothing outside** the directory that the output enters. -/
theorem sameOutside_emit (h : (c.emit order k).Yields t s t') (hd : Path.Enters c.output.dir name)
    (hc : ∃ n, Path.Enters c.output.catalog n) (hhome : t.IsDir t.home) :
    FileTree.SameOutside t t' (t.home ++ [name]) := by
  unfold emit destination at h
  cases hl : c.output.layout with
  | single =>
    rw [hl] at h
    obtain ⟨n, hn⟩ := hc
    exact sameOutside_writeCatalog h (hd.join hn.not_isAbsolute hn.not_mem_parts) hhome
  | sharded =>
    rw [hl] at h
    exact sameOutside_writeSharded h hd hhome

/-- **Writing a catalog again changes nothing.** -/
theorem emit_again (hn : (k.tracks.map Track.hash).Nodup) (h : (c.emit order k).Yields t s t')
    (order' : ListingOrder) : (c.emit order' k).Yields t' s t' := by
  unfold emit at h ⊢
  cases hl : c.output.layout with
  | single =>
    rw [hl] at h
    exact writeCatalog_again h
  | sharded =>
    rw [hl] at h
    exact writeSharded_again hn h order'

/-! ## Running again -/

theorem yields_run_of_emit {x : Assembled} (hx : (c.assembler.assemble t).result = .ok x)
    (h : (c.emit order x.catalog).Yields t s t') :
    (c.run order).Yields t ⟨s, x.warnings, c.destination⟩ t' := by
  rw [run, Task.yields_bind]
  refine ⟨x, t, Task.yields_look.2 ⟨hx, rfl⟩, ?_⟩
  rw [Task.yields_bind]
  exact ⟨s, t', h, Task.yields_pure.2 ⟨rfl, rfl⟩⟩

/-- **A second run changes nothing.** When the output goes below a directory that no input path
enters, and a run succeeds, then a run on the tree that it leaves succeeds too, reports the same and
leaves that very tree, in whatever order the directories are listed to it. -/
theorem run_again_changes_nothing (hdir : Path.Enters c.output.dir name)
    (hcatalog : ∃ n, Path.Enters c.output.catalog n)
    (hinputs : ∀ path ∈ c.inputPaths, ∃ n, Path.Enters path n ∧ n ≠ name)
    (h : (c.run order).Yields t r t') (order' : ListingOrder) : (c.run order').Yields t' r t' := by
  obtain ⟨x, hx, hemit, hwarnings, hdest⟩ := yields_run h
  obtain ⟨n, hprimary, -⟩ := hinputs _ List.mem_cons_self
  have hout := sameOutside_emit hemit hdir hcatalog (isDir_home hx hprimary)
  -- the sources lie outside, so the second run assembles what the first one did
  have hsame : c.assembler.assemble t' = c.assembler.assemble t := by
    refine c.assembler.assemble_congr fun s hs => s.items_congr ?_
    obtain ⟨n, hn, hne⟩ := hinputs _ (path_mem_inputPaths hs)
    exact hout.open?_eq hn hne
  have hagain := emit_again (Assembler.nodup_hash_of_assemble hx) hemit order'
  have hrun := yields_run_of_emit (hsame ▸ hx) hagain
  rwa [← hwarnings, ← hdest] at hrun

namespace Twice

/-- One track, no references and no supplemental source, and an output with a shard of an earlier
run. -/
def before : FileTree :=
  FileTree.empty.putFile ["tracks"]
      (Bytes.ofText "aaaaaaaaaaaaaaaaaaaaaaaaaaaaaaaaaaaaaaaa|7|||1|11|||||first|||||\n")
    |>.putFile ["references"] [] |>.putDir ["out"] |>.putDir ["out", "tracks"]
    |>.putFile ["out", "tracks", "old.bin"] [1]

/-- A configuration with a supplemental source. -/
def config : PipelineConfig :=
  ⟨⟨⟨"tracks", 0⟩, some ⟨"more/tracks", 0, none⟩, ⟨"references", 0⟩⟩, ⟨40⟩, ⟨"ZPd"⟩,
    ⟨"out", .sharded, "catalog.bin"⟩⟩

/-- What both runs report. -/
def report : BuildReport := ⟨⟨1, 0⟩, [.supplementalMissing "more/tracks" none], "out"⟩

/-- Lists what was put last first. -/
def newestFirst : ListingOrder := ⟨List.reverse, List.reverse_perm⟩

/-- The first run finds an old shard to take away, and the second has nothing to do. -/
theorem second_run_has_nothing_to_do :
    Path.Enters config.output.dir "out" ∧ (∃ n, Path.Enters config.output.catalog n) ∧
      (∀ path ∈ config.inputPaths, ∃ n, Path.Enters path n ∧ n ≠ "out") ∧
      ∃ after, (config.run .stored).Yields before report after ∧
        (config.run newestFirst).Yields after report after :=
  have hdir : Path.Enters config.output.dir "out" := ⟨[], by decide, by decide, by decide⟩
  have hcatalog : ∃ n, Path.Enters config.output.catalog n :=
    ⟨"catalog.bin", [], by decide, by decide, by decide⟩
  have hinputs : ∀ path ∈ config.inputPaths, ∃ n, Path.Enters path n ∧ n ≠ "out" :=
    List.forall_mem_cons.2 ⟨⟨"tracks", ⟨[], by decide, by decide, by decide⟩, by decide⟩,
      List.forall_mem_cons.2 ⟨⟨"references", ⟨[], by decide, by decide, by decide⟩, by decide⟩,
        List.forall_mem_singleton.2
          ⟨"more", ⟨["tracks"], by decide, by decide, by decide⟩, by decide⟩⟩⟩
  have hrun := Task.yields_of_result_eq_ok (x := config.run .stored) (t := before) (a := report)
    (by decide +kernel)
  ⟨hdir, hcatalog, hinputs, _, hrun,
    run_again_changes_nothing hdir hcatalog hinputs hrun newestFirst⟩

end Twice

end PipelineConfig

end TrackCatalog
