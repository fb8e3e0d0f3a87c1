import TrackCatalog.Alias
import TrackCatalog.Assemble.Merge
import TrackCatalog.Catalog

/-!
# Assembling a catalog

The merged tracks of all sources are indexed as they are, so that aliases may also lead to tracks
that are not placed; only then are the tracks picked that the catalog holds: the placed ones, and
of several with one hash the first.

* `emittedTracks`: the tracks that are picked.
* `Assembler.assemble`: the catalog of the sources. It only reads the tree.
-/

namespace TrackCatalog

/-- The tracks whose hash is neither among `seen` nor that of a track before them. -/
def firstPerHash (seen : List Hash) : List Track → List Track
  | [] => []
  | t :: rest =>
    if t.hash ∈ seen then firstPerHash seen rest else t :: firstPerHash (t.hash :: seen) rest

/-- The tracks a catalog holds: placed, and the first with their hash among the placed ones. -/
def emittedTracks (tracks : List Track) : List Track :=
  firstPerHash [] (tracks.filter Track.isAssigned)

/-- What the picking left out: tracks without a placement, then tracks whose hash was taken. -/
def filterEvent (tracks : List Track) : Event :=
  let unassigned := tracks.countP fun t => !t.isAssigned
  let emitted := (emittedTracks tracks).length
  .filteredTracks tracks.length unassigned (tracks.length - unassigned - emitted) emitted

/-- The sources of a catalog and what to leave out. -/
structure Assembler where
  tracks : TrackSources
  references : ReferenceSource
  exclusion : ExclusionFlags
  deriving DecidableEq, Repr

/-- A catalog and what to warn of. -/
structure Assembled where
  catalog : Catalog
  warnings : List AssembleWarning
  deriving DecidableEq

/-- The catalog of tracks that are merged already. -/
def Assembler.assembleTracks (a : Assembler) (tracks : List Track) (t : FileTree) :
    Traced CatalogError Catalog := do
  let index := IdentityIndex.ofTracks tracks
  Traced.note (.builtIndex index.size)
  let aliases ← AliasResolver.resolve ⟨index, a.exclusion⟩ a.references t
  Traced.note (filterEvent tracks)
  return { tracks := emittedTracks tracks, aliases }

/-- The catalog of the sources. -/
def Assembler.assemble (a : Assembler) (t : FileTree) : Traced CatalogError Assembled := do
  let merged ← a.tracks.merge t
  let catalog ← a.assembleTracks merged.tracks t
  return { catalog, warnings := merged.warnings }

end TrackCatalog
