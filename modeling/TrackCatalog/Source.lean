import TrackCatalog.Error
import TrackCatalog.Files.Access
import TrackCatalog.Record.Reference
import TrackCatalog.Record.TrackLine
import TrackCatalog.Text.Lines
import TrackCatalog.Traced

/-!
# Delimited sources

A source is a file of records, one a line, after a header of a fixed number of lines. Reading gives
one item per line that is not blank, in order: what the line holds, or what is wrong with it. Lines
are numbered from 1 as they stand in the file, header and blank lines included.

* `DelimitedSource.items`: the lines that count.
* `TrackSource.records`, `TrackSource.readAll`: the tracks of a source, and all of them at once.
* `ReferenceSource.records`: the references of a source; remarks are skipped.
-/

namespace TrackCatalog

/-- A file of records and the number of lines before the first of them. -/
structure DelimitedSource where
  path : String
  headerLines : Nat
  deriving DecidableEq, Repr

/-- A line that counts, with its number in the file. -/
structure SourceLine where
  number : Nat
  text : String
  deriving DecidableEq, Repr

/-- What reading a line gives. -/
abbrev Item (α : Type) := Except CatalogError α

/-- The values of all items, or the first error among them. -/
def Item.all {α : Type} : List (Item α) → Except CatalogError (List α)
  | [] => .ok []
  | .ok a :: rest => (Item.all rest).map (a :: ·)
  | .error e :: _ => .error e

namespace DelimitedSource

/-- The lines of a file, with their numbers. -/
def numberedLines (bytes : Bytes) : List (Nat × Bytes) :=
  (Text.lines 10 13 bytes).zipIdx.map fun (line, i) => (i + 1, line)

/-- What a line holds: nothing if it is blank, and an error in its place if it is no text. -/
def item? (path : String) (line : Nat × Bytes) : Option (Item SourceLine) :=
  match Bytes.text? line.2 with
  | none => some (.error (.file path .invalidText))
  | some text => if (Text.trim text).isEmpty then none else some (.ok ⟨line.1, text⟩)

/-- The items of a file with these bytes. -/
def itemsOf (s : DelimitedSource) (bytes : Bytes) : List (Item SourceLine) :=
  ((numberedLines bytes).drop s.headerLines).filterMap (item? s.path)

/-- The items of what stands at the source's path: a directory can be opened but not read. -/
def itemsOfNode (s : DelimitedSource) : Node → List (Item SourceLine)
  | .file bytes => s.itemsOf bytes
  | .dir _ => [.error (.file s.path .isADirectory)]

/-- Opens the source and reads its lines. -/
def items (s : DelimitedSource) (t : FileTree) : Traced CatalogError (List (Item SourceLine)) :=
  match t.open? s.path with
  | .error .notFound => .ofExcept (.error (.sourceNotFound s.path))
  | .error fault => .ofExcept (.error (.file s.path fault))
  | .ok node => do
    Traced.note (.openedSource s.path s.headerLines)
    return s.itemsOfNode node

end DelimitedSource

/-- A source of track lines, and the greatest length of a name. -/
structure TrackSource where
  source : DelimitedSource
  maxNameLen : Nat
  deriving DecidableEq, Repr

namespace TrackSource

/-- Where the source lies. -/
def path (s : TrackSource) : String := s.source.path

/-- The track on a line. -/
def record (s : TrackSource) : Item SourceLine → Item Track
  | .error e => .error e
  | .ok line => (Track.ofLine s.maxNameLen line.text).mapError (.malformedRecord s.path line.number)

/-- The tracks of the source, each or what is wrong with it. -/
def records (s : TrackSource) (t : FileTree) : Traced CatalogError (List (Item Track)) := do
  let items ← s.source.items t
  return items.map s.record

/-- All tracks of the source. -/
def readAll (s : TrackSource) (t : FileTree) : Traced CatalogError (List Track) := do
  let tracks ← Traced.ofExcept (Item.all (← s.records t))
  Traced.note (.readTracks s.path tracks.length)
  return tracks

end TrackSource

/-- A source of reference lines. -/
structure ReferenceSource where
  source : DelimitedSource
  deriving DecidableEq, Repr

namespace ReferenceSource

/-- Where the source lies. -/
def path (s : ReferenceSource) : String := s.source.path

/-- The reference on a line, with the line's number; a remark is none. -/
def record? (s : ReferenceSource) : Item SourceLine → Option (Item (Nat × Reference))
  | .error e => some (.error e)
  | .ok line =>
    if Reference.isRemark line.text then none
    else
      some (((Reference.ofLine line.text).map (line.number, ·)).mapError
        (.malformedRecord s.path line.number))

/-- The references of the source, each or what is wrong with it. -/
def records (s : ReferenceSource) (t : FileTree) :
    Traced CatalogError (List (Item (Nat × Reference))) := do
  let items ← s.source.items t
  return items.filterMap s.record?

end ReferenceSource

end TrackCatalog
