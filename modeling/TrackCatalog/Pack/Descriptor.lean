import TrackCatalog.Track

/-!
# Packs

A pack names tracks by hash, sorted by game mode, and carries stubs for tracks that are not in the
public database yet.
-/

namespace TrackCatalog

/-- A named bundle of tracks. -/
structure Pack where
  name : String
  authorNames : String
  description : String
  raceTracks : List Hash
  coinTracks : List Hash
  balloonTracks : List Hash
  /-- Stubs for tracks outside the public database: no name, and music that follows the slot. -/
  unreleasedTracks : List Track
  deriving DecidableEq

/-- The number of tracks the pack names by hash. -/
def Pack.trackCount (p : Pack) : Nat :=
  p.raceTracks.length + p.coinTracks.length + p.balloonTracks.length

end TrackCatalog
