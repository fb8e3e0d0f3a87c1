import TrackCatalog.Pipeline.Config
import TrackCatalog.Proofs.Toml.Records

/-!
# The fields of a configuration

A configuration is read record by record. Here each part of each record is led back to what the
document gives for its field; where it gives nothing, the part is the stock one. The sources are the
exception: each is read from nothing, whatever the stock one holds.

* `reads_sources`, `reads_names`, `reads_aliases`, `reads_output`: the parts of a configuration.
* `reads_primary`, `reads_supplemental`, `reads_references`: its sources.
* `path_of_readSource`, `reads_headerLines`, `path_of_readOptionalSource`, `reads_url`: the parts of
  a source.
-/

namespace TrackCatalog.PipelineConfig

open Text (Located)
open Toml (Misfit)
open Toml.Shape (Reads reads_of_record)

variable {c : PipelineConfig} {v w : Located Toml.Value} {s : SourcesConfig} {x : SourceConfig}
  {o : OptionalSourceConfig} {n : NamesConfig} {y : AliasesConfig} {z : OutputConfig}

/-! ## The fields of the records -/

/-- What a document gives for a field of the whole configuration. -/
def configField (name : String) (v : Located Toml.Value) : Option (Located Toml.Value) :=
  v.item.field? ["sources", "names", "aliases", "output"] name

/-- What a document gives for one of the sources, in the table of all sources. -/
def sourcesField (name : String) (v : Located Toml.Value) : Option (Located Toml.Value) :=
  v.item.field? ["primary", "supplemental", "aliases"] name

/-- What a document gives for a field of a source that must be there. -/
def sourceField (name : String) (v : Located Toml.Value) : Option (Located Toml.Value) :=
  v.item.field? ["path", "header_lines"] name

/-- What a document gives for a field of the supplemental source. -/
def optionalSourceField (name : String) (v : Located Toml.Value) : Option (Located Toml.Value) :=
  v.item.field? ["path", "header_lines", "url"] name

/-- What a document gives for a field of the output. -/
def outputField (name : String) (v : Located Toml.Value) : Option (Located Toml.Value) :=
  v.item.field? ["dir", "mode", "catalog"] name

/-- What a document gives for a source. -/
def sourceGiven (name : String) (v : Located Toml.Value) : Option (Located Toml.Value) :=
  (configField "sources" v).bind (sourcesField name)

theorem reads_sources (h : ofValue v = .ok c) :
    Reads (configField "sources" v) (fun w s => readSources w = .ok s) stock.sources c.sources :=
  reads_of_record PipelineConfig.sources h <|
    .same (fun _ _ _ h => h) <| .other (by decide) (fun _ _ => rfl) <|
    .other (by decide) (fun _ _ => rfl) <| .other (by decide) (fun _ _ => rfl) <| .nil

theorem reads_names (h : ofValue v = .ok c) :
    Reads (configField "names" v) (fun w n => readNames w = .ok n) stock.names c.names :=
  reads_of_record PipelineConfig.names h <|
    .other (by decide) (fun _ _ => rfl) <| .same (fun _ _ _ h => h) <|
    .other (by decide) (fun _ _ => rfl) <| .other (by decide) (fun _ _ => rfl) <| .nil

theorem reads_aliases (h : ofValue v = .ok c) :
    Reads (configField "aliases" v) (fun w y => readAliases w = .ok y) stock.aliases c.aliases :=
  reads_of_record PipelineConfig.aliases h <|
    .other (by decide) (fun _ _ => rfl) <| .other (by decide) (fun _ _ => rfl) <|
    .same (fun _ _ _ h => h) <| .other (by decide) (fun _ _ => rfl) <| .nil

theorem reads_output (h : ofValue v = .ok c) :
    Reads (configField "output" v) (fun w z => readOutput w = .ok z) stock.output c.output :=
  reads_of_record PipelineConfig.output h <|
    .other (by decide) (fun _ _ => rfl) <| .other (by decide) (fun _ _ => rfl) <|
    .other (by decide) (fun _ _ => rfl) <| .same (fun _ _ _ h => h) <| .nil

theorem reads_primary (h : readSources w = .ok s) :
    Reads (sourcesField "primary" w) (fun v x => readSource v = .ok x) stock.sources.primary
      s.primary :=
  reads_of_record SourcesConfig.primary h <|
    .same (fun _ _ _ h => h) <| .other (by decide) (fun _ _ => rfl) <|
    .other (by decide) (fun _ _ => rfl) <| .nil

theorem reads_supplemental (h : readSources w = .ok s) :
    Reads (sourcesField "supplemental" w)
      (fun v x => ∃ o, readOptionalSource v = .ok o ∧ x = some o) stock.sources.supplemental
      s.supplemental :=
  reads_of_record SourcesConfig.supplemental h <|
    .other (by decide) (fun _ _ => rfl) <| .same (fun _ _ o h => ⟨o, h, rfl⟩) <|
    .other (by decide) (fun _ _ => rfl) <| .nil

theorem reads_references (h : readSources w = .ok s) :
    Reads (sourcesField "aliases" w) (fun v x => readSource v = .ok x) stock.sources.aliases
      s.aliases :=
  reads_of_record SourcesConfig.aliases h <|
    .other (by decide) (fun _ _ => rfl) <| .other (by decide) (fun _ _ => rfl) <|
    .same (fun _ _ _ h => h) <| .nil

theorem reads_maxLen (h : readNames w = .ok n) :
    Reads (w.item.field? ["max_len"] "max_len") (fun v k => Toml.Shape.natural v = .ok k)
      stock.names.maxLen n.maxLen :=
  reads_of_record NamesConfig.maxLen h <| .same (fun _ _ _ h => h) <| .nil

theorem reads_exclusionFlags (h : readAliases w = .ok y) :
    Reads (w.item.field? ["exclusion_flags"] "exclusion_flags")
      (fun v k => Toml.Shape.text "a string" v = .ok k) stock.aliases.exclusionFlags
      y.exclusionFlags :=
  reads_of_record AliasesConfig.exclusionFlags h <| .same (fun _ _ _ h => h) <| .nil

theorem reads_dir (h : readOutput w = .ok z) :
    Reads (outputField "dir" w) (fun v k => Toml.Shape.text "path string" v = .ok k)
      stock.output.dir z.dir :=
  reads_of_record OutputConfig.dir h <|
    .same (fun _ _ _ h => h) <| .other (by decide) (fun _ _ => rfl) <|
    .other (by decide) (fun _ _ => rfl) <| .nil

theorem reads_layout (h : readOutput w = .ok z) :
    Reads (outputField "mode" w) (fun v k => readLayout v = .ok k) stock.output.layout z.layout :=
  reads_of_record OutputConfig.layout h <|
    .other (by decide) (fun _ _ => rfl) <| .same (fun _ _ _ h => h) <|
    .other (by decide) (fun _ _ => rfl) <| .nil

theorem reads_catalog (h : readOutput w = .ok z) :
    Reads (outputField "catalog" w) (fun v k => Toml.Shape.text "path string" v = .ok k)
      stock.output.catalog z.catalog :=
  reads_of_record OutputConfig.catalog h <|
    .other (by decide) (fun _ _ => rfl) <| .other (by decide) (fun _ _ => rfl) <|
    .same (fun _ _ _ h => h) <| .nil

/-- A path that is required was there. -/
theorem SourceDraft.requirePath_eq_ok {d : SourceDraft} {expected path : String}
    (h : d.requirePath expected v = .ok path) : d.path = some path := by
  unfold requirePath at h
  split at h
  · next hpath =>
    cases h
    exact hpath
  · cases h
  · cases h

theorem readSource_eq_ok (h : readSource v = .ok x) :
    ∃ d, Toml.Shape.record "SourceConfig" [pathField, headerField] .start v = .ok d ∧
      d.path = some x.path ∧ d.headerLines = x.headerLines := by
  obtain ⟨d, hd, h⟩ := Except.bind_eq_ok_iff.1 h
  obtain ⟨path, hpath, h⟩ := Except.bind_eq_ok_iff.1 h
  cases h
  exact ⟨d, hd, SourceDraft.requirePath_eq_ok hpath, rfl⟩

theorem readOptionalSource_eq_ok (h : readOptionalSource v = .ok o) :
    ∃ d, Toml.Shape.record "OptionalSourceConfig" [pathField, headerField, urlField] .start v =
      .ok d ∧ d.path = some o.path ∧ d.headerLines = o.headerLines ∧ d.url = o.url := by
  obtain ⟨d, hd, h⟩ := Except.bind_eq_ok_iff.1 h
  obtain ⟨path, hpath, h⟩ := Except.bind_eq_ok_iff.1 h
  obtain ⟨_, -, h⟩ := Except.bind_eq_ok_iff.1 h
  cases h
  exact ⟨d, hd, SourceDraft.requirePath_eq_ok hpath, rfl, rfl⟩

/-- The path of a source is given. -/
theorem path_of_readSource (h : readSource v = .ok x) :
    ∃ w, sourceField "path" v = some w ∧ Toml.Shape.text "path string" w = .ok x.path := by
  obtain ⟨d, hd, hpath, -⟩ := readSource_eq_ok h
  refine Reads.of_some ?_
  rw [← hpath]
  exact reads_of_record SourceDraft.path hd <|
    .same (fun _ _ k h => ⟨k, h, rfl⟩) <| .other (by decide) (fun _ _ => rfl) <| .nil

theorem reads_headerLines (h : readSource v = .ok x) :
    Reads (sourceField "header_lines" v) (fun w k => Toml.Shape.natural w = .ok k) stockHeaderLines
      x.headerLines := by
  obtain ⟨d, hd, -, hheader⟩ := readSource_eq_ok h
  rw [← hheader]
  exact reads_of_record SourceDraft.headerLines hd <|
    .other (by decide) (fun _ _ => rfl) <| .same (fun _ _ _ h => h) <| .nil

theorem path_of_readOptionalSource (h : readOptionalSource v = .ok o) :
    ∃ w, optionalSourceField "path" v = some w ∧ Toml.Shape.text "path string" w = .ok o.path := by
  obtain ⟨d, hd, hpath, -⟩ := readOptionalSource_eq_ok h
  refine Reads.of_some ?_
  rw [← hpath]
  exact reads_of_record SourceDraft.path hd <|
    .same (fun _ _ k h => ⟨k, h, rfl⟩) <| .other (by decide) (fun _ _ => rfl) <|
    .other (by decide) (fun _ _ => rfl) <| .nil

theorem reads_optionalHeaderLines (h : readOptionalSource v = .ok o) :
    Reads (optionalSourceField "header_lines" v) (fun w k => Toml.Shape.natural w = .ok k)
      stockHeaderLines o.headerLines := by
  obtain ⟨d, hd, -, hheader, -⟩ := readOptionalSource_eq_ok h
  rw [← hheader]
  exact reads_of_record SourceDraft.headerLines hd <|
    .other (by decide) (fun _ _ => rfl) <| .same (fun _ _ _ h => h) <|
    .other (by decide) (fun _ _ => rfl) <| .nil

theorem reads_url (h : readOptionalSource v = .ok o) :
    Reads (optionalSourceField "url" v)
      (fun w u => ∃ url, Toml.Shape.text "a string" w = .ok url ∧ u = some url) none o.url := by
  obtain ⟨d, hd, -, -, hurl⟩ := readOptionalSource_eq_ok h
  rw [← hurl]
  exact reads_of_record SourceDraft.url hd <|
    .other (by decide) (fun _ _ => rfl) <| .other (by decide) (fun _ _ => rfl) <|
    .same (fun _ _ k h => ⟨k, h, rfl⟩) <| .nil

end TrackCatalog.PipelineConfig
