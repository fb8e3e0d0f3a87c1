import TrackCatalog.Main
import TrackCatalog.Sectioned.Render
import TrackCatalog.Proofs.Assembly.Selection
import TrackCatalog.Proofs.Assembly.Resolution
import TrackCatalog.Proofs.Assembly.Closure
import TrackCatalog.Proofs.Blob.Codec
import TrackCatalog.Proofs.Blob.RoundTrip
import TrackCatalog.Proofs.Files.Path
import TrackCatalog.Proofs.Files.View
import TrackCatalog.Proofs.Files.Walk
import TrackCatalog.Proofs.Files.Operations
import TrackCatalog.Proofs.Files.Directories
import TrackCatalog.Proofs.Emit.ShardName
import TrackCatalog.Proofs.Emit.Sharded
import TrackCatalog.Proofs.Blob.Size
import TrackCatalog.Proofs.Emit.ReadBack
import TrackCatalog.Proofs.Pipeline.Layouts
import TrackCatalog.Proofs.Assembly.Merging
import TrackCatalog.Proofs.Assembly.Emission
import TrackCatalog.Proofs.Assembly.Supplement
import TrackCatalog.Proofs.CommandLine.Inspect
import TrackCatalog.Proofs.Emit.Frame
import TrackCatalog.Proofs.Files.Replacement
import TrackCatalog.Proofs.Pipeline.Footprint
import TrackCatalog.Proofs.Source.Lines
import TrackCatalog.Proofs.Text.Trim
import TrackCatalog.Proofs.Assembly.References
import TrackCatalog.Proofs.Pipeline.Fallback
import TrackCatalog.Proofs.Sectioned.Layout
import TrackCatalog.Proofs.Sectioned.Normal
import TrackCatalog.Proofs.Record.Spelling
import TrackCatalog.Proofs.Pack.Layout
import TrackCatalog.Proofs.Files.Settled
import TrackCatalog.Proofs.Files.Apart
import TrackCatalog.Proofs.Emit.Again
import TrackCatalog.Proofs.Pipeline.Idempotence
import TrackCatalog.Proofs.Record.TrackLine
import TrackCatalog.Proofs.Pipeline.Tracks
import TrackCatalog.Proofs.Pipeline.Defaults
import TrackCatalog.Proofs.Pack.Stubs
import TrackCatalog.Proofs.Assembly.Duplicates
import TrackCatalog.Proofs.Assembly.Identity
import TrackCatalog.Proofs.Blob.Spelling
import TrackCatalog.Proofs.Blob.Truncation
import TrackCatalog.Proofs.Blob.Shortest
import TrackCatalog.Proofs.Emit.Failure
import TrackCatalog.Proofs.Record.HashText
import TrackCatalog.Proofs.Record.Grammar
import TrackCatalog.Proofs.Source.Reading
import TrackCatalog.Proofs.Sectioned.Concatenation
