import TrackCatalog.Files.Access
import TrackCatalog.Pack.Descriptor
import TrackCatalog.Sectioned.Fields

/-!
# Pack configurations

A pack is described by a sectioned document: the section `Pack Info` holds its name, author and
description and three comma-separated lists of hashes, and every other section is a track outside
the public database, named by its hash, with a slot and a type.

* `PackConfig.parse`: reads a description.
* `PackConfig.toPack`: the pack it describes.
-/

namespace TrackCatalog

/-- A track that is not in the public database yet. -/
structure UnreleasedTrack where
  hash : Hash
  slot : UInt32
  kind : UInt32
  deriving DecidableEq

/-- The description of a pack. -/
structure PackConfig where
  name : String
  author : String
  description : String
  race : List Hash
  coin : List Hash
  balloon : List Hash
  unreleased : List UnreleasedTrack
  deriving DecidableEq

namespace PackConfig

/-- The name of the section with the pack's own data. -/
def infoSection : String := "Pack Info"

/-- Reads a hash that stands in a section. -/
def readHash (s : Section) (text : String) : Except ConfigError Hash :=
  (Hash.ofHex text).mapError (.invalidHash s.name)

/-- The items of a list with commas between them; empty items do not count. -/
def listItems (value : String) : List String :=
  ((value.toList.splitOn ',').map fun item => String.ofList (Text.trimList item)).filter
    fun item => !item.isEmpty

/-- Reads the hashes listed under a key. -/
def readHashes (s : Section) (key : String) : Except ConfigError (List Hash) := do
  (listItems (← s.require key)).mapM (readHash s)

/-- Reads a section that describes an unreleased track. -/
def readUnreleased (s : Section) : Except ConfigError UnreleasedTrack := do
  let hash ← readHash s (Text.trim s.name)
  let slot ← s.requireWord "slot"
  let kind ← s.requireWord "type"
  return { hash, slot, kind }

/-- Reads the description in a document. Unreleased tracks are looked at before the pack's data. -/
def ofDocument (d : SectionedDocument) : Except ConfigError PackConfig := do
  let info ← d.require infoSection
  let unreleased ← (d.sections.filter fun s => s.name ≠ infoSection).mapM readUnreleased
  let name ← info.require "name"
  let author ← info.require "author"
  let description ← info.require "description"
  let race ← readHashes info "race"
  let coin ← readHashes info "coin"
  let balloon ← readHashes info "balloon"
  return { name, author, description, race, coin, balloon, unreleased }

/-- Reads the description in a text. -/
def parse (text : String) : Except ConfigError PackConfig := do
  ofDocument (← (SectionedDocument.parse text).mapError .document)

/-- Reads the description in a file. -/
def load (t : FileTree) (path : String) : Except ConfigError PackConfig := do
  parse (← (t.readText path).mapError (.file path))

end PackConfig

/-- The stub of an unreleased track. -/
def UnreleasedTrack.toTrack (u : UnreleasedTrack) : Track where
  hash := u.hash
  externalId := none
  name := ""
  slot := u.slot
  kind := u.kind
  music := none
  version := none

/-- The pack that a description stands for. -/
def PackConfig.toPack (c : PackConfig) : Pack where
  name := c.name
  authorNames := c.author
  description := c.description
  raceTracks := c.race
  coinTracks := c.coin
  balloonTracks := c.balloon
  unreleasedTracks := c.unreleased.map UnreleasedTrack.toTrack

end TrackCatalog
