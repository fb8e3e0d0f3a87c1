import TrackCatalog.Source

/-!
# Merging the track sources

The primary source must be there. A supplemental source adds its tracks after the primary ones,
without those that equal a track already in the list. When its file is missing, and only then, the
primary tracks are all there is and a warning says so.

* `Merge.ofTracks`: the merged list and the number of tracks left out.
* `TrackSources.merge`: reads and merges the sources.
-/

namespace TrackCatalog

/-- A source that may be missing, and where its file can be had. -/
structure SupplementalSource where
  source : TrackSource
  url : Option String
  deriving DecidableEq, Repr

/-- A condition that does not stop a run. -/
inductive AssembleWarning where
  | supplementalMissing (path : String) (url : Option String)
  deriving DecidableEq, Repr

/-- The warning in words: the missing file, then where to get it. -/
def AssembleWarning.text : AssembleWarning → String
  | supplementalMissing path url =>
    s!"could not find {path}, output will only include out-of-db tracks!\n" ++
      match url with
      | some url => s!"you can download it from {url}"
      | none => "no download location is configured for it"

/-- The warning line by line. -/
def AssembleWarning.lines (w : AssembleWarning) : List String :=
  (Text.lines '\n' '\r' w.text.toList).map String.ofList

/-- A merged list, the set of the tracks in it, and the number of tracks left out of it. -/
structure Merge where
  tracks : List Track
  seen : List Track
  duplicates : Nat
  deriving DecidableEq

namespace Merge

/-- The tracks that are there before any are added. -/
def start (primary : List Track) : Merge := ⟨primary, primary, 0⟩

/-- Adds a track at the end, unless it was seen. -/
def add (m : Merge) (t : Track) : Merge :=
  if t ∈ m.seen then { m with duplicates := m.duplicates + 1 }
  else { m with tracks := m.tracks ++ [t], seen := t :: m.seen }

/-- The primary tracks, then the supplemental ones that are new. -/
def ofTracks (primary supplemental : List Track) : Merge := supplemental.foldl add (start primary)

end Merge

/-- The track sources of a run. -/
structure TrackSources where
  primary : TrackSource
  supplemental : Option SupplementalSource
  deriving DecidableEq, Repr

/-- Tracks from all sources and what to warn of. -/
structure MergedTracks where
  tracks : List Track
  warnings : List AssembleWarning
  deriving DecidableEq

namespace TrackSources

/-- Adds the tracks of the supplemental source. -/
def addSupplemental (s : SupplementalSource) (primary : List Track) (t : FileTree) :
    Traced CatalogError MergedTracks := do
  match ← (s.source.readAll t).attempt with
  | .ok extra =>
    let m := Merge.ofTracks primary extra
    Traced.note (.mergedSupplemental s.source.path m.tracks.length m.duplicates)
    return ⟨m.tracks, []⟩
  | .error (.sourceNotFound _) =>
    let warning := AssembleWarning.supplementalMissing s.source.path s.url
    Traced.noteAll (warning.lines.map .warned)
    return ⟨primary, [warning]⟩
  | .error e => Traced.ofExcept (.error e)

/-- Reads the sources and merges their tracks. -/
def merge (s : TrackSources) (t : FileTree) : Traced CatalogError MergedTracks := do
  let primary ← s.primary.readAll t
  Traced.note (.readPrimary s.primary.path primary.length)
  match s.supplemental with
  | none => return ⟨primary, []⟩
  | some supplemental => addSupplemental supplemental primary t

end TrackSources

end TrackCatalog
