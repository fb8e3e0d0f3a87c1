import TrackCatalog.Proofs.Assembly.Supplement
import TrackCatalog.Proofs.Pipeline.Layouts
import TrackCatalog.Proofs.Record.Spelling
import TrackCatalog.Proofs.Source.Lines

/-!
# Doing without the supplemental source

A run goes on without its supplemental source when nothing stands at its path, and then it is the
run of the primary source alone, but for one warning. In every other case the supplemental source
counts whole or its fault ends the run. No other source may be missing.

* `PipelineConfig.primaryOnly`: the configuration without a supplemental source.
* `PipelineConfig.run_eq_of_assemble_eq`: runs that assemble the same catalog do the same.
* `OutputConfig.Content`, `PipelineConfig.content_iff_of_run`: the bytes that a run leaves in the
  files of its output.
* `PipelineConfig.only_missing_supplement_is_skipped`: the account of all cases.
-/

namespace TrackCatalog

variable {t : FileTree} {e : CatalogError}

namespace Assembler

/-- Without a supplemental source the primary tracks are the merged ones. -/
theorem result_assemble_none (primary : TrackSource) (references : ReferenceSource)
    (exclusion : ExclusionFlags) (t : FileTree) :
    (assemble ⟨⟨primary, none⟩, references, exclusion⟩ t).result =
      (primary.readAll t).result.bind fun tracks =>
        (assembleTracks ⟨⟨primary, none⟩, references, exclusion⟩ tracks t).result.map
          fun c => ⟨c, []⟩ := by
  rw [result_assemble, TrackSources.result_merge]
  dsimp only
  cases (primary.readAll t).result <;> rfl

theorem result_assemble_some (primary : TrackSource) (s : SupplementalSource)
    (references : ReferenceSource) (exclusion : ExclusionFlags) (t : FileTree) :
    (assemble ⟨⟨primary, some s⟩, references, exclusion⟩ t).result =
      (primary.readAll t).result.bind fun tracks =>
        (TrackSources.addSupplemental s tracks t).result.bind fun m =>
          (assembleTracks ⟨⟨primary, none⟩, references, exclusion⟩ m.tracks t).result.map
            fun c => ⟨c, m.warnings⟩ := by
  rw [result_assemble, TrackSources.result_merge]
  dsimp only
  cases (primary.readAll t).result <;> rfl

end Assembler

/-- What the files of an output have in them when a catalog is written there: the catalog itself in
the single file, or one track in each shard and the aliases beside the shards. -/
inductive OutputConfig.Content (o : OutputConfig) (c : Catalog) : String → Bytes → Prop
  | file (h : o.layout = .single) :
      o.Content c (Path.join o.dir o.catalog) (Blob.encode .catalog c)
  | shard (h : o.layout = .sharded) {k : Track} (hk : k ∈ c.tracks) :
      o.Content c (shardPath o.dir k.hash) (Blob.encode .track k)
  | aliases (h : o.layout = .sharded) :
      o.Content c (aliasFile o.dir) (Blob.encode .aliases c.aliases)

namespace PipelineConfig

variable {a b c : PipelineConfig} {order order' : ListingOrder} {o : OptionalSourceConfig}
  {r : BuildReport} {t' : FileTree}

/-- The configuration without a supplemental source. -/
def primaryOnly (c : PipelineConfig) : PipelineConfig :=
  { c with sources := { c.sources with supplemental := none } }

/-- The supplemental source that a configuration describes. -/
def supplementalSource (c : PipelineConfig) (o : OptionalSourceConfig) : TrackSource :=
  ⟨o.source, c.names.maxLen⟩

/-- The warning that a supplemental source is missing. -/
def missingWarning (o : OptionalSourceConfig) : AssembleWarning := .supplementalMissing o.path o.url

theorem assembler_of_supplemental (h : c.sources.supplemental = some o) :
    c.assembler = ⟨⟨c.assembler.tracks.primary, some ⟨c.supplementalSource o, o.url⟩⟩,
      c.assembler.references, c.assembler.exclusion⟩ := by
  unfold assembler
  rw [h]
  rfl

/-! ## Assembling -/

/-- **A missing supplemental source** leaves the assembly of the primary source, with a warning. -/
theorem assemble_of_missing (hs : c.sources.supplemental = some o)
    (h : t.open? o.path = .error .notFound) :
    (c.assembler.assemble t).result = (c.primaryOnly.assembler.assemble t).result.map
      fun r => ⟨r.catalog, [missingWarning o]⟩ := by
  have hread : ((c.supplementalSource o).readAll t).result = .error (.sourceNotFound o.path) :=
    TrackSource.readAll_of_missing h
  have hnone := Assembler.result_assemble_none c.assembler.tracks.primary c.assembler.references
    c.assembler.exclusion t
  rw [assembler_of_supplemental hs, Assembler.result_assemble_some]
  refine Eq.trans ?_ (congrArg _ hnone.symm)
  cases (c.assembler.tracks.primary.readAll t).result with
  | error e => rfl
  | ok tracks =>
    dsimp only [Except.bind]
    rw [TrackSources.result_addSupplemental, hread]
    dsimp only [Except.bind]
    cases (Assembler.assembleTracks _ tracks t).result <;> rfl

/-- **A supplemental source that is there counts whole.** -/
theorem assemble_of_holds {primary extra : List Track} (hs : c.sources.supplemental = some o)
    (hp : (c.assembler.tracks.primary.readAll t).result = .ok primary)
    (h : (c.supplementalSource o).Holds t extra) :
    ∃ rest, rest.Sublist extra ∧ (∀ k ∈ extra, k ∈ primary ++ rest) ∧
      (c.assembler.assemble t).result =
        (c.primaryOnly.assembler.assembleTracks (primary ++ rest) t).result.map
          fun k => ⟨k, []⟩ := by
  -- the merge appends those of the supplemental tracks that are not there yet
  obtain ⟨rest, hrest, hsub, hall⟩ := Merge.exists_rest_ofTracks primary extra
  refine ⟨rest, hsub, hall, ?_⟩
  rw [assembler_of_supplemental hs, Assembler.result_assemble_some, hp]
  dsimp only [Except.bind]
  rw [TrackSources.result_addSupplemental, TrackSource.readAll_of_holds h]
  dsimp only
  rw [hrest]
  rfl

/-- **A supplemental source that refuses ends the assembly with its fault.** -/
theorem assemble_of_refuses {primary : List Track} (hs : c.sources.supplemental = some o)
    (hp : (c.assembler.tracks.primary.readAll t).result = .ok primary)
    (h : (c.supplementalSource o).Refuses t e) : (c.assembler.assemble t).result = .error e := by
  rw [assembler_of_supplemental hs, Assembler.result_assemble_some, hp]
  dsimp only [Except.bind]
  rw [TrackSources.result_addSupplemental, TrackSource.readAll_of_refuses h]
  -- a missing file would be forgiven here, but a source that refuses is not missing
  cases e with
  | sourceNotFound p => exact absurd rfl (TrackSource.ne_sourceNotFound_of_refuses h p)
  | _ => rfl

theorem assemble_of_primary_error
    (hp : (c.assembler.tracks.primary.readAll t).result = .error e) :
    (c.assembler.assemble t).result = .error e := by
  rw [Assembler.result_assemble, TrackSources.result_merge, hp]
  rfl

/-- A missing reference file ends the assembly, unless a fault of a track source did before. -/
theorem assemble_of_references_missing
    (h : t.open? c.sources.aliases.path = .error .notFound) :
    ∃ e, (c.assembler.assemble t).result = .error e ∧
      ∀ m, (c.assembler.tracks.merge t).result = .ok m →
        e = .sourceNotFound c.sources.aliases.path := by
  have hread : (c.assembler.references.records t).result =
      .error (.sourceNotFound c.sources.aliases.path) := by
    change t.open? c.assembler.references.source.path = _ at h
    rw [ReferenceSource.result_records, DelimitedSource.result_items, h]
    rfl
  rw [Assembler.result_assemble]
  cases (c.assembler.tracks.merge t).result with
  | error e => exact ⟨e, rfl, fun m hm => by cases hm⟩
  | ok m =>
    refine ⟨_, ?_, fun _ _ => rfl⟩
    dsimp only [Except.bind]
    unfold Assembler.assembleTracks AliasResolver.resolve
    simp only [Traced.result_bind, Traced.result_note, hread, Except.bind, Except.map]

/-! ## Running -/

/-- **Runs that assemble the same catalog do the same**, whatever they warn of. -/
theorem run_eq_of_assemble_eq (hout : a.output = b.output) (ws : List AssembleWarning)
    (h : (a.assembler.assemble t).result =
      (b.assembler.assemble t).result.map fun r => ⟨r.catalog, ws⟩) :
    ((a.run order).run t).tree = ((b.run order).run t).tree ∧
      ((a.run order).run t).result =
        ((b.run order).run t).result.map fun r => { r with warnings := ws } := by
  have hemit : ∀ k, a.emit order k = b.emit order k := by
    intro k
    unfold emit destination
    rw [hout]
  have hdest : a.destination = b.destination := by
    unfold destination
    rw [hout]
  rw [run, run, Task.run_bind, Task.run_bind, Task.run_look, Task.run_look]
  cases hb : (b.assembler.assemble t).result with
  | error e =>
    rw [hb] at h
    simp only [h, Except.map, and_self]
  | ok r =>
    rw [hb] at h
    simp only [h, Except.map, hemit, hdest, Task.run_bind]
    cases ((b.emit order r.catalog).run t).result <;> exact ⟨rfl, rfl⟩

/-- **Without its supplemental source a run does what it does when none is configured**, and says
so. -/
theorem run_of_missing (order : ListingOrder) (hs : c.sources.supplemental = some o)
    (h : t.open? o.path = .error .notFound) :
    ((c.run order).run t).tree = ((c.primaryOnly.run order).run t).tree ∧
      ((c.run order).run t).result = ((c.primaryOnly.run order).run t).result.map
        fun r => { r with warnings := [missingWarning o] } := by
  have hout : c.output = c.primaryOnly.output := rfl
  exact run_eq_of_assemble_eq hout [missingWarning o] (assemble_of_missing hs h)

/-! ## The files of the output -/

/-- The path is that of a file of the output: the single file, a shard or the alias table. -/
def IsArtifact (c : PipelineConfig) (path : String) : Prop :=
  match c.output.layout with
  | .single => path = c.destination
  | .sharded => path = aliasFile c.output.dir ∨ ∃ h, path = shardPath c.output.dir h

/-- **A run leaves just the bytes of its catalog** in the files of its output. -/
theorem content_iff_of_run (h : (c.run order).Yields t r t') :
    ∃ x, (c.assembler.assemble t).result = .ok x ∧ ∀ path bytes,
      c.output.Content x.catalog path bytes ↔
        c.IsArtifact path ∧ t'.readFile path = .ok bytes := by
  unfold IsArtifact
  cases hl : c.output.layout with
  | single =>
    obtain ⟨x, hx, hemit, -, -⟩ := yields_run h
    have hdest : c.destination = Path.join c.output.dir c.output.catalog := by
      rw [destination, hl]
    rw [emit, hl, hdest] at hemit
    have hfile := (readFile_of_writeCatalog hemit).2
    refine ⟨x, hx, fun path bytes => ⟨fun hc => ?_, ?_⟩⟩
    · cases hc with
      | file => exact ⟨hdest.symm, hfile⟩
      | shard hs => cases hl.symm.trans hs
      | aliases hs => cases hl.symm.trans hs
    · rintro ⟨rfl, hread⟩
      rw [hdest] at hread ⊢
      obtain rfl := Except.ok.inj (hfile.symm.trans hread)
      exact .file hl
  | sharded =>
    obtain ⟨x, l, hx, -, -, hold⟩ := holdsShards_of_run_sharded hl h
    refine ⟨x, hx, fun path bytes => ⟨fun hc => ?_, ?_⟩⟩
    · cases hc with
      | file hs => cases hl.symm.trans hs
      | shard _ hk => exact ⟨.inr ⟨_, rfl⟩, hold.shard _ hk⟩
      | aliases => exact ⟨.inl rfl, hold.aliases⟩
    · rintro ⟨rfl | ⟨hash, rfl⟩, hread⟩
      · obtain rfl := Except.ok.inj (hold.aliases.symm.trans hread)
        exact .aliases hl
      · obtain ⟨k, hk, rfl, rfl⟩ := hold.exists_track_of_readFile hread
        exact .shard hl hk

/-- **A run with the catalog of the primary source writes what that source alone writes**, in
whatever order the directories are listed to the two runs. -/
theorem readFile_artifact {r₁ r₂ : BuildReport} {t₁ t₂ : FileTree} {ws : List AssembleWarning}
    (hasm : (c.assembler.assemble t).result = (c.primaryOnly.assembler.assemble t).result.map
      fun r => ⟨r.catalog, ws⟩)
    (h₁ : (c.run order).Yields t r₁ t₁) (h₂ : (c.primaryOnly.run order').Yields t r₂ t₂)
    {path : String} (hpath : c.IsArtifact path) (bytes : Bytes) :
    t₁.readFile path = .ok bytes ↔ t₂.readFile path = .ok bytes := by
  obtain ⟨x, hx, hcx⟩ := content_iff_of_run h₁
  obtain ⟨y, hy, hcy⟩ := content_iff_of_run h₂
  have hxy : x.catalog = y.catalog := by
    rw [hy, hx] at hasm
    cases hasm
    rfl
  -- both write to the same output, whose files the catalog alone decides
  have hpath' : c.primaryOnly.IsArtifact path := hpath
  have hcontent : c.output.Content x.catalog path bytes ↔
      c.primaryOnly.output.Content y.catalog path bytes := by
    rw [hxy]
    exact Iff.rfl
  rw [hcx, hcy] at hcontent
  simpa only [hpath, hpath', true_and] using hcontent

/-! ## All cases -/

/-- **Only a missing supplemental source is done without.** When nothing stands at its path, the run
is that of the primary source alone: the same catalog or the same fault, one warning that names the
path and where the file can be had, the same tree afterwards, and the same bytes in each file of the
output even if directories are listed in another order. When something stands there, all its tracks
count and nothing is warned of, or its fault ends the run, which then leaves the tree as it was. A
missing primary source or reference file always ends the run. Whatever its sources, a run that
succeeds leaves the bytes of the catalog that it assembled in the files of the output. -/
theorem only_missing_supplement_is_skipped (order : ListingOrder) (c : PipelineConfig)
    (t : FileTree) :
    (∀ o, c.sources.supplemental = some o →
      (t.open? o.path = .error .notFound →
        (c.assembler.assemble t).result = (c.primaryOnly.assembler.assemble t).result.map
          (fun r => ⟨r.catalog, [.supplementalMissing o.path o.url]⟩) ∧
        ((c.run order).run t).tree = ((c.primaryOnly.run order).run t).tree ∧
        ((c.run order).run t).result = ((c.primaryOnly.run order).run t).result.map
          (fun r => { r with warnings := [.supplementalMissing o.path o.url] }) ∧
        ∀ order' r₁ t₁ r₂ t₂, (c.run order).Yields t r₁ t₁ →
          (c.primaryOnly.run order').Yields t r₂ t₂ → ∀ path, c.IsArtifact path →
            ∀ bytes, t₁.readFile path = .ok bytes ↔ t₂.readFile path = .ok bytes) ∧
      (t.open? o.path ≠ .error .notFound →
        (∃ extra, (c.supplementalSource o).Holds t extra) ∨
          ∃ e, (c.supplementalSource o).Refuses t e) ∧
      ∀ primary, (c.assembler.tracks.primary.readAll t).result = .ok primary →
        (∀ extra, (c.supplementalSource o).Holds t extra →
          ∃ rest, rest.Sublist extra ∧ (∀ k ∈ extra, k ∈ primary ++ rest) ∧
            (c.assembler.assemble t).result =
              (c.primaryOnly.assembler.assembleTracks (primary ++ rest) t).result.map
                fun k => ⟨k, []⟩) ∧
        ∀ e, (c.supplementalSource o).Refuses t e →
          (c.assembler.assemble t).result = .error e ∧
          ((c.run order).run t).result = .error e ∧ ((c.run order).run t).tree = t) ∧
    (t.open? c.sources.primary.path = .error .notFound →
      ((c.run order).run t).result = .error (.sourceNotFound c.sources.primary.path) ∧
      ((c.run order).run t).tree = t) ∧
    (t.open? c.sources.aliases.path = .error .notFound →
      ∃ e, ((c.run order).run t).result = .error e ∧ ((c.run order).run t).tree = t ∧
        ∀ m, (c.assembler.tracks.merge t).result = .ok m →
          e = .sourceNotFound c.sources.aliases.path) ∧
    ∀ r t', (c.run order).Yields t r t' →
      ∃ x, (c.assembler.assemble t).result = .ok x ∧ ∀ path bytes,
        c.output.Content x.catalog path bytes ↔
          c.IsArtifact path ∧ t'.readFile path = .ok bytes := by
  refine ⟨fun o hs => ⟨fun hmissing => ?_, fun hthere => ?_, fun primary hp =>
    ⟨fun extra hx => assemble_of_holds hs hp hx, fun e he => ?_⟩⟩, fun hmissing => ?_,
    fun hmissing => ?_, fun _ _ hrun => content_iff_of_run hrun⟩
  · have hasm := assemble_of_missing hs hmissing
    obtain ⟨htree, hresult⟩ := run_of_missing order hs hmissing
    exact ⟨hasm, htree, hresult, fun _ _ _ _ _ h₁ h₂ _ hpath => readFile_artifact hasm h₁ h₂ hpath⟩
  · exact ((c.supplementalSource o).missing_or_holds_or_refuses t).resolve_left hthere
  · have hasm := assemble_of_refuses hs hp he
    exact ⟨hasm, run_of_assemble_eq_error hasm⟩
  · have hread := TrackSource.readAll_of_missing (s := c.assembler.tracks.primary) hmissing
    exact run_of_assemble_eq_error (assemble_of_primary_error hread)
  · obtain ⟨e, he, hmerge⟩ := assemble_of_references_missing hmissing
    have hrun : ((c.run order).run t).result = .error e ∧ ((c.run order).run t).tree = t :=
      run_of_assemble_eq_error he
    exact ⟨e, hrun.1, hrun.2, hmerge⟩

namespace Supplemented

/-- The tracks of a second file, which may be missing. -/
def more : OptionalSourceConfig := ⟨"more", 0, some "ftp://tracks/more"⟩

/-- A configuration that names that file. -/
def config : PipelineConfig :=
  { Both.single with sources := { Both.single.sources with supplemental := some more } }

/-- A track and then a line that is none. -/
def tornBytes : Bytes :=
  Bytes.ofText ("cccccccccccccccccccccccccccccccccccccccc|9|||1|13|||||third|||||\n" ++ "draft\n")

/-- A tree where these are in the file. -/
def torn : FileTree := Assembler.Repeated.tree.putFile ["more"] tornBytes

/-- Without the file the run succeeds as it does when no such file is named, and writes the catalog
of the first file; with the torn file it fails at the second line and writes nothing. -/
theorem absent_file_is_skipped_and_torn_one_is_fatal :
    Assembler.Repeated.tree.open? "more" = .error .notFound ∧
      ((config.run .stored).run Assembler.Repeated.tree).result =
        .ok ⟨⟨1, 1⟩, [.supplementalMissing "more" (some "ftp://tracks/more")], "out/catalog.bin"⟩ ∧
      ((config.run .stored).run Assembler.Repeated.tree).tree =
        ((config.primaryOnly.run .stored).run Assembler.Repeated.tree).tree ∧
      ((config.run .stored).run Assembler.Repeated.tree).tree.readFile "out/catalog.bin" =
        .ok (Blob.encode .catalog Assembler.Repeated.assembled.catalog) ∧
      ((config.run .stored).run torn).result =
        .error (.malformedRecord "more" 2 (.fieldCount 16 1)) ∧
      ((config.run .stored).run torn).tree = torn := by
  have hmissing : Assembler.Repeated.tree.open? "more" = .error .notFound :=
    FileTree.readFile_eq_notFound_iff_open?.1 (by decide +kernel)
  have hprimary : (config.assembler.tracks.primary.readAll torn).result =
      .ok [⟨Assembler.Repeated.taken, some 7, "first", 11, 1, none, none⟩,
        ⟨Assembler.Repeated.taken, some 8, "second", 12, 1, none, none⟩] := by
    decide +kernel
  have hopen : torn.open? "more" = .ok (.file tornBytes) :=
    FileTree.readFile_eq_ok_iff_open?.1 (by decide +kernel)
  have hlines : ((config.supplementalSource more).source.bodyLines tornBytes).filterMap
      (config.supplementalSource more).lineItem? =
      [⟨.filled 0xCC, some 9, "third", 13, 1, none, none⟩].map .ok ++
        [.error (.malformedRecord "more" 2 (.fieldCount 16 1))] := by
    decide +kernel
  have hplain : ((config.primaryOnly.run .stored).run Assembler.Repeated.tree).result =
      .ok ⟨⟨1, 1⟩, [], "out/catalog.bin"⟩ := by
    decide +kernel
  have hassembled : (config.assembler.assemble Assembler.Repeated.tree).result =
      .ok ⟨Assembler.Repeated.assembled.catalog,
        [.supplementalMissing "more" (some "ftp://tracks/more")]⟩ := by
    decide +kernel
  have hjoin : Path.join "out" "catalog.bin" = "out/catalog.bin" := by decide
  obtain ⟨hsupplement, -, -, hbytes⟩ :=
    only_missing_supplement_is_skipped .stored config Assembler.Repeated.tree
  obtain ⟨hskip, -⟩ := hsupplement more rfl
  obtain ⟨-, -, hread⟩ := (only_missing_supplement_is_skipped .stored config torn).1 more rfl
  obtain ⟨-, htree, hresult, -⟩ := hskip hmissing
  rw [hplain] at hresult
  obtain ⟨x, hx, hcontent⟩ := hbytes _ _ (Task.yields_of_result_eq_ok hresult)
  obtain rfl := Except.ok.inj (hassembled.symm.trans hx)
  have hfile := ((hcontent _ _).1 (.file rfl)).2
  exact ⟨hmissing, hresult, htree, hjoin ▸ hfile, ((hread _ hprimary).2 _ (.line hopen hlines)).2⟩

end Supplemented

end PipelineConfig

end TrackCatalog
