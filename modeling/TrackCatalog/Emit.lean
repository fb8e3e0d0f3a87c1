import TrackCatalog.Blob
import TrackCatalog.Error
import TrackCatalog.Files.Access
import TrackCatalog.Traced

/-!
# Writing catalogs

A catalog goes into one file, or into a directory: one file per track, named by the track's hash,
below `tracks`, and the alias table beside it. Each file is put in place as a whole. After the
shards are written, those of earlier runs are taken away, whatever order a listing gives them in.

* `writeBlob`, `readBlob`: one value in one file.
* `writeCatalog`: the single-file layout.
* `writeSharded`: the sharded layout.
-/

namespace TrackCatalog

/-- What was written, in numbers. -/
structure EmitSummary where
  tracks : Nat
  aliases : Nat
  deriving DecidableEq, Repr

/-- The summary in words. -/
def EmitSummary.text (s : EmitSummary) : String := s!"{s.tracks} tracks and {s.aliases} aliases"

/-- What a catalog holds, in numbers. -/
def Catalog.summary (c : Catalog) : EmitSummary := ⟨c.tracks.length, c.aliases.length⟩

/-- Puts bytes in place as the file at a path. -/
def writeAtomic (path : String) (bytes : Bytes) : Task CatalogError Unit :=
  .change fun t => (t.replaceFile path bytes).mapError fun (path, fault) => .file path fault

/-- Puts the blob of a value in place as the file at a path. -/
def writeBlob {α : Type} (c : Codec α) (path : String) (a : α) : Task CatalogError Unit :=
  writeAtomic path (Blob.encode c a)

/-- Reads the value of the blob at a path. -/
def readBlob {α : Type} (c : Codec α) (t : FileTree) (path : String) : Except CatalogError α :=
  match t.readFile path with
  | .error fault => .error (.file path fault)
  | .ok bytes => (Blob.decode c bytes).mapError .invalidBlob

/-- Creates a directory and those above it. -/
def createOutputDir (dir : String) : Task CatalogError Unit :=
  .attempt fun t =>
    let (t, result) := t.createDirs dir
    (t, result.mapError (.file dir))

/-- Writes a catalog as one file. -/
def writeCatalog (c : Catalog) (path : String) : Task CatalogError EmitSummary := do
  match Path.parent? path with
  | none => pure ()
  | some parent => if parent.isEmpty then pure () else createOutputDir parent
  writeBlob .catalog path c
  Task.note (.wroteCatalog path c.summary.text)
  return c.summary

/-- The directory of the shards in a sharded output. -/
def tracksDir (dir : String) : String := Path.join dir "tracks"

/-- The alias table in a sharded output. -/
def aliasFile (dir : String) : String := Path.join dir "alias.bin"

/-- The extension of a blob file. -/
def blobExtension : String := "bin"

/-- The file name of a track's shard. -/
def shardName (h : Hash) : String := h.toHex ++ "." ++ blobExtension

/-- The path of a track's shard. -/
def shardPath (dir : String) (h : Hash) : String := Path.join (tracksDir dir) (shardName h)

/-- Writes the shards of tracks in turn. -/
def writeShards (dir : String) : List Track → Task CatalogError Unit
  | [] => pure ()
  | t :: rest => do
    writeBlob .track (shardPath dir t.hash) t
    writeShards dir rest

/-- The file names of a catalog's shards. -/
def Catalog.shardNames (c : Catalog) : List String := c.tracks.map fun t => shardName t.hash

/-- A file name of the shards' kind that is none of these. -/
def isStale (shards : List String) (name : String) : Bool :=
  Path.extension? name = some blobExtension && !shards.contains name

/-- Takes away the stale files among those with these names, and counts them. -/
def removeStale (dir : String) (shards : List String) : List String → Task CatalogError Nat
  | [] => pure 0
  | name :: rest =>
    if isStale shards name then do
      let path := Path.join (tracksDir dir) name
      Task.change fun t => (t.removeFile path).mapError (.file path)
      let removed ← removeStale dir shards rest
      return removed + 1
    else removeStale dir shards rest

/-- An order in which a directory lists what it holds. -/
structure ListingOrder where
  reorder : List String → List String
  perm : ∀ names, (reorder names).Perm names

/-- The order in which the names were put there. -/
def ListingOrder.stored : ListingOrder := ⟨id, fun _ => .refl _⟩

/-- The names in a directory, in some order. -/
def listDir (order : ListingOrder) (path : String) (t : FileTree) :
    Traced CatalogError (List String) :=
  .ofExcept <|
    match t.directory path with
    | .ok l => .ok (order.reorder (t.names l))
    | .error fault => .error (.file path fault)

/-- Writes a catalog as one file per track and an alias table below `dir`. -/
def writeSharded (order : ListingOrder) (c : Catalog) (dir : String) :
    Task CatalogError EmitSummary := do
  createOutputDir (tracksDir dir)
  writeShards dir c.tracks
  let stale ← removeStale dir c.shardNames (← Task.look (listDir order (tracksDir dir)))
  Task.note (.wroteShards dir c.tracks.length stale)
  writeBlob .aliases (aliasFile dir) c.aliases
  Task.note (.wroteShardedCatalog dir c.summary.text)
  return c.summary

end TrackCatalog
