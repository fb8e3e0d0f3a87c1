import TrackCatalog.Blob.Codec
import TrackCatalog.Catalog
import TrackCatalog.Pack.Descriptor

/-!
# Codecs of the artifacts

The fields of a record follow each other in the order of its declaration, with nothing between
them; a hash is its twenty bytes.
-/

namespace TrackCatalog.Codec

/-- The twenty bytes of a hash. -/
def hash : Codec Hash where
  encode h := h.bytes
  decode bytes :=
    if h : 20 ≤ bytes.length then .ok (⟨bytes.take 20, by simp [h]⟩, bytes.drop 20)
    else .error .endOfInput

/-- The fields of a track. -/
def track : Codec Track :=
  (hash.pair (word.option.pair (text.pair (word.pair (word.pair
    (word.option.pair text.option)))))).map
    (fun (hash, externalId, name, slot, kind, music, version) =>
      { hash, externalId, name, slot, kind, music, version })
    (fun t => (t.hash, t.externalId, t.name, t.slot, t.kind, t.music, t.version))

/-- The fields of an alias. -/
def aliasEntry : Codec AliasEntry :=
  (hash.pair hash).map (fun (aliased, canonical) => { aliased, canonical })
    (fun a => (a.aliased, a.canonical))

/-- The alias table. -/
def aliases : Codec (List AliasEntry) := aliasEntry.list

/-- The fields of a catalog. -/
def catalog : Codec Catalog :=
  (track.list.pair aliases).map (fun (tracks, aliases) => { tracks, aliases })
    (fun c => (c.tracks, c.aliases))

/-- The fields of a pack. -/
def pack : Codec Pack :=
  (text.pair (text.pair (text.pair (hash.list.pair (hash.list.pair (hash.list.pair
    track.list)))))).map
    (fun (name, authorNames, description, raceTracks, coinTracks, balloonTracks,
        unreleasedTracks) =>
      { name, authorNames, description, raceTracks, coinTracks, balloonTracks, unreleasedTracks })
    (fun p => (p.name, p.authorNames, p.description, p.raceTracks, p.coinTracks, p.balloonTracks,
      p.unreleasedTracks))

end TrackCatalog.Codec
