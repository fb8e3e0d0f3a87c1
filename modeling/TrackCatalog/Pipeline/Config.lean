import TrackCatalog.Config
import TrackCatalog.Files.Access
import TrackCatalog.Pipeline.Layout
import TrackCatalog.Toml.Document
import TrackCatalog.Toml.Representable

/-!
# Pipeline configurations

Where the sources lie, how they are read, and where the catalog goes. A configuration is a TOML
document, and whatever it leaves out has a stock value.

* `PipelineConfig.stock`: the configuration that an empty document stands for.
* `PipelineConfig.parse`, `load`: read a configuration.
-/

namespace TrackCatalog

/-- A source file and the number of lines before its records. -/
structure SourceConfig where
  path : String
  headerLines : Nat
  deriving DecidableEq, Repr

/-- A source file that may be missing, and where it can be had. -/
structure OptionalSourceConfig where
  path : String
  headerLines : Nat
  url : Option String
  deriving DecidableEq, Repr

/-- The sources of a run. -/
structure SourcesConfig where
  primary : SourceConfig
  supplemental : Option OptionalSourceConfig
  aliases : SourceConfig
  deriving DecidableEq, Repr

/-- How names are read. -/
structure NamesConfig where
  /-- The greatest length of a display name, in characters. -/
  maxLen : Nat
  deriving DecidableEq, Repr

/-- How references are read. -/
structure AliasesConfig where
  /-- The flag characters that exclude a reference. -/
  exclusionFlags : String
  deriving DecidableEq, Repr

/-- Where the catalog goes. -/
structure OutputConfig where
  dir : String
  layout : Layout
  /-- The catalog file of the single-file layout, taken from `dir`. -/
  catalog : String
  deriving DecidableEq, Repr

/-- What a run reads and writes. -/
structure PipelineConfig where
  sources : SourcesConfig
  names : NamesConfig
  aliases : AliasesConfig
  output : OutputConfig
  deriving DecidableEq, Repr

/-- The header of a source unless a document says otherwise. -/
def stockHeaderLines : Nat := 1

/-- The sources of a document that names none. -/
def SourcesConfig.stock : SourcesConfig where
  primary := ⟨"extended-tracks.csv", 1⟩
  supplemental :=
    some ⟨"in/public-ref.list", 1, some "http://archive.tock.eu/wbz/public-ref.list"⟩
  aliases := ⟨"in/sha1-reference.txt", 10⟩

/-- The configuration of an empty document. -/
def PipelineConfig.stock : PipelineConfig where
  sources := .stock
  names := ⟨40⟩
  aliases := ⟨"ZPd"⟩
  output := ⟨"out", .sharded, "catalog.bin"⟩

namespace PipelineConfig

open Text (Located)
open Toml (Value Misfit)
open Toml.Shape (FieldReader)

/-- A source as far as it is read: the path has no stock value. -/
structure SourceDraft where
  path : Option String
  headerLines : Nat
  url : Option String

/-- The draft of a source of which nothing is known. -/
def SourceDraft.start : SourceDraft := ⟨none, stockHeaderLines, none⟩

/-- The path of a source, which has to be given. -/
def SourceDraft.requirePath (d : SourceDraft) (expected : String) (v : Located Value) :
    Except Misfit String :=
  match d.path, v.item with
  | some path, _ => .ok path
  | none, .array _ _ => Toml.Shape.refuse v (.invalidLength 0 expected)
  | none, _ => Toml.Shape.refuse v (.missingField "path")

/-- The field with the path of a source. -/
def pathField : FieldReader SourceDraft :=
  ⟨"path", fun v d => do return { d with path := some (← Toml.Shape.text "path string" v) }⟩

/-- The field with the header of a source. -/
def headerField : FieldReader SourceDraft :=
  ⟨"header_lines", fun v d => do return { d with headerLines := ← Toml.Shape.natural v }⟩

/-- The field with the place where a source can be had. -/
def urlField : FieldReader SourceDraft :=
  ⟨"url", fun v d => do return { d with url := some (← Toml.Shape.text "a string" v) }⟩

/-- Reads a source. -/
def readSource (v : Located Value) : Except Misfit SourceConfig := do
  let d ← Toml.Shape.record "SourceConfig" [pathField, headerField] .start v
  let path ← d.requirePath "struct SourceConfig with 2 elements" v
  return { path, headerLines := d.headerLines }

/-- An array reaches up to the last field of a source that may be missing: a table may leave the
place out where it can be had, an array may not. -/
def requireUrlItem (expected : String) (v : Located Value) : Except Misfit Unit :=
  match v.item with
  | .array _ items =>
    if items.length < 3 then Toml.Shape.refuse v (.invalidLength 2 expected) else .ok ()
  | _ => .ok ()

/-- Reads a source that may be missing. -/
def readOptionalSource (v : Located Value) : Except Misfit OptionalSourceConfig := do
  let expected := "struct OptionalSourceConfig with 3 elements"
  let d ← Toml.Shape.record "OptionalSourceConfig" [pathField, headerField, urlField] .start v
  let path ← d.requirePath expected v
  requireUrlItem expected v
  return { path, headerLines := d.headerLines, url := d.url }

/-- Reads the sources. -/
def readSources (v : Located Value) : Except Misfit SourcesConfig :=
  Toml.Shape.record "SourcesConfig"
    [⟨"primary", fun v s => do return { s with primary := ← readSource v }⟩,
      ⟨"supplemental", fun v s => do
        return { s with supplemental := some (← readOptionalSource v) }⟩,
      ⟨"aliases", fun v s => do return { s with aliases := ← readSource v }⟩]
    .stock v

/-- Reads how names are read. -/
def readNames (v : Located Value) : Except Misfit NamesConfig :=
  Toml.Shape.record "NamesConfig"
    [⟨"max_len", fun v s => do return { s with maxLen := ← Toml.Shape.natural v }⟩]
    stock.names v

/-- Reads how references are read. -/
def readAliases (v : Located Value) : Except Misfit AliasesConfig :=
  Toml.Shape.record "AliasesConfig"
    [⟨"exclusion_flags", fun v s => do
      return { s with exclusionFlags := ← Toml.Shape.text "a string" v }⟩]
    stock.aliases v

/-- Reads a layout. -/
def readLayout : Located Value → Except Misfit Layout :=
  Toml.Shape.choice [Layout.sharded.name, Layout.single.name] Layout.ofName?

/-- Reads where the catalog goes. -/
def readOutput (v : Located Value) : Except Misfit OutputConfig :=
  Toml.Shape.record "OutputConfig"
    [⟨"dir", fun v s => do return { s with dir := ← Toml.Shape.text "path string" v }⟩,
      ⟨"mode", fun v s => do return { s with layout := ← readLayout v }⟩,
      ⟨"catalog", fun v s => do return { s with catalog := ← Toml.Shape.text "path string" v }⟩]
    stock.output v

/-- Reads a whole configuration. -/
def ofValue (v : Located Value) : Except Misfit PipelineConfig :=
  Toml.Shape.record "PipelineConfig"
    [⟨"sources", fun v c => do return { c with sources := ← readSources v }⟩,
      ⟨"names", fun v c => do return { c with names := ← readNames v }⟩,
      ⟨"aliases", fun v c => do return { c with aliases := ← readAliases v }⟩,
      ⟨"output", fun v c => do return { c with output := ← readOutput v }⟩]
    stock v

/-- Reads the configuration in a text. A number that cannot be held does no harm where the
configuration makes nothing of it. -/
def parse (text : String) : Except ConfigError PipelineConfig :=
  let cs := text.toList
  match Toml.Document.parse cs with
  | .error refusal => .error (.malformed (.of cs refusal.span) refusal.item)
  | .ok es =>
    (ofValue ⟨⟨cs, []⟩, .table .header es⟩).mapError fun misfit =>
      .misfit (.of cs misfit.span) misfit.item (Toml.Entries.isRepresentable es)

/-- Reads the configuration in a file. -/
def load (t : FileTree) (path : String) : Except ConfigError PipelineConfig := do
  parse (← (t.readText path).mapError (.file path))

/-- Reads the configuration in a file, or takes the stock one when no file is named. -/
def loadOrStock (t : FileTree) : Option String → Except ConfigError PipelineConfig
  | some path => load t path
  | none => .ok stock

end PipelineConfig

end TrackCatalog
