import TrackCatalog.Track

/-!
# Identity index

The index says which hash and slot an external id stands for. Every track that carries the id is
looked at, placed or not, and the first one counts.

* `IdentityIndex.ofTracks`: builds the index.
* `IdentityIndex.get?`, `size`, `isEmpty`: what it holds.
-/

namespace TrackCatalog

/-- What an external id stands for. -/
structure IndexEntry where
  hash : Hash
  slot : UInt32
  deriving DecidableEq

/-- External ids and what they stand for, each id once. -/
structure IdentityIndex where
  entries : List (UInt32 × IndexEntry)

namespace IdentityIndex

/-- The index that knows no id. -/
def empty : IdentityIndex := ⟨[]⟩

/-- What an external id stands for, if the index knows it. -/
def get? (x : IdentityIndex) (externalId : UInt32) : Option IndexEntry :=
  x.entries.lookup externalId

/-- The number of ids the index knows. -/
def size (x : IdentityIndex) : Nat := x.entries.length

/-- The index knows no id. -/
def isEmpty (x : IdentityIndex) : Bool := x.entries.isEmpty

/-- Adds an id unless the index knows it. -/
def insertNew (x : IdentityIndex) (externalId : UInt32) (e : IndexEntry) : IdentityIndex :=
  if (x.get? externalId).isSome then x else ⟨x.entries ++ [(externalId, e)]⟩

/-- Adds the id of a track, if it carries one. -/
def addTrack (x : IdentityIndex) (t : Track) : IdentityIndex :=
  match t.externalId with
  | none => x
  | some externalId => x.insertNew externalId ⟨t.hash, t.slot⟩

/-- The index of a list of tracks. -/
def ofTracks (tracks : List Track) : IdentityIndex := tracks.foldl addTrack empty

end IdentityIndex

end TrackCatalog
