import TrackCatalog.Course
import TrackCatalog.Hash

/-!
# Tracks and aliases

A track is one definition from a track export; an alias says that an older hash now stands for
another one.
-/

namespace TrackCatalog

/-- One track definition. -/
structure Track where
  /-- The content hash of the track file. -/
  hash : Hash
  /-- The number the track has in the public database, used to join references. -/
  externalId : Option UInt32
  /-- The display name, with its game tag and cut to length. -/
  name : String
  /-- The placement slot, 0 when the track is not placed. -/
  slot : UInt32
  /-- The category: 1 for a race track, 2 for a battle arena. -/
  kind : UInt32
  /-- The music slot, when it does not follow the placement. -/
  music : Option UInt32
  version : Option String
  deriving DecidableEq

namespace Track

/-- The track has a placement. -/
def isAssigned (t : Track) : Bool := t.slot ≠ Course.unassignedSlot

/-- The track is a battle arena. -/
def isBattle (t : Track) : Bool := t.kind = Course.battleKind

/-- The course the track's slot stands for. -/
def course (t : Track) : Except CourseError (Option UInt8) := Course.ofSlot t.slot t.kind

end Track

/-- A superseded hash and the hash that stands for it now. -/
structure AliasEntry where
  aliased : Hash
  canonical : Hash
  deriving DecidableEq

end TrackCatalog
