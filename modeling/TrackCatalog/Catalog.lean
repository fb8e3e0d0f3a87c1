import TrackCatalog.Track

/-!
# Catalogs

A catalog holds the emitted tracks in order and the aliases that lead to them.

* `Catalog.get?`: a track by its own hash.
* `Catalog.resolve?`: a track by its own hash or, failing that, by one alias.
-/

namespace TrackCatalog

/-- Tracks and aliases, each in the order they were found. -/
structure Catalog where
  tracks : List Track
  aliases : List AliasEntry
  deriving DecidableEq

namespace Catalog

/-- The first track with this hash. -/
def get? (c : Catalog) (h : Hash) : Option Track := c.tracks.find? fun t => t.hash = h

/-- The hash that stands for this one, by the first alias for it. -/
def canonical? (c : Catalog) (h : Hash) : Option Hash :=
  (c.aliases.find? fun a => a.aliased = h).map AliasEntry.canonical

/-- The track with this hash or, if there is none, with the hash that stands for it. -/
def resolve? (c : Catalog) (h : Hash) : Option Track :=
  match c.get? h with
  | some t => some t
  | none => (c.canonical? h).bind c.get?

end Catalog

end TrackCatalog
