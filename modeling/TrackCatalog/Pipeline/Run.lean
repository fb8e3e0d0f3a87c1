import TrackCatalog.Assemble
import TrackCatalog.Emit
import TrackCatalog.Pipeline.Config

/-!
# Running the pipeline

A run assembles the catalog that a configuration describes and then writes it. Assembling only
reads, so nothing is written unless all of it succeeds.

* `PipelineConfig.assembler`: the sources of a configuration.
* `PipelineConfig.run`: a whole run.
-/

namespace TrackCatalog

/-- What a run did: what it wrote, what it warns of, and where the catalog is. -/
structure BuildReport where
  summary : EmitSummary
  warnings : List AssembleWarning
  /-- The catalog file, or the output directory of the sharded layout. -/
  destination : String
  deriving DecidableEq

/-- The file that a source configuration names. -/
def SourceConfig.source (c : SourceConfig) : DelimitedSource := ⟨c.path, c.headerLines⟩

/-- The file that the configuration of an optional source names. -/
def OptionalSourceConfig.source (c : OptionalSourceConfig) : DelimitedSource :=
  ⟨c.path, c.headerLines⟩

namespace PipelineConfig

/-- The sources of a configuration. -/
def assembler (c : PipelineConfig) : Assembler where
  tracks :=
    { primary := ⟨c.sources.primary.source, c.names.maxLen⟩
      supplemental := c.sources.supplemental.map fun s => ⟨⟨s.source, c.names.maxLen⟩, s.url⟩ }
  references := ⟨c.sources.aliases.source⟩
  exclusion := .ofText c.aliases.exclusionFlags

/-- Where the catalog of a configuration goes. -/
def destination (c : PipelineConfig) : String :=
  match c.output.layout with
  | .single => Path.join c.output.dir c.output.catalog
  | .sharded => c.output.dir

/-- Writes a catalog where the configuration says. -/
def emit (order : ListingOrder) (c : PipelineConfig) (catalog : Catalog) :
    Task CatalogError EmitSummary :=
  match c.output.layout with
  | .single => writeCatalog catalog c.destination
  | .sharded => writeSharded order catalog c.destination

/-- Assembles the catalog and writes it. -/
def run (order : ListingOrder) (c : PipelineConfig) : Task CatalogError BuildReport := do
  let assembled ← Task.look c.assembler.assemble
  let summary ← c.emit order assembled.catalog
  return { summary, warnings := assembled.warnings, destination := c.destination }

end PipelineConfig

end TrackCatalog
