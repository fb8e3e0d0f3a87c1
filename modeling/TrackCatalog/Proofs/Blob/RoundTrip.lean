import TrackCatalog.Blob
import TrackCatalog.Proofs.Blob.Codec

/-!
# Blobs read back

* `Track.Fits`, `Catalog.Fits`, `Pack.Fits`: the texts and lists inside are short enough for their
  lengths to be written, which is so for everything that fits into memory.
* `Artifact`: what a blob can hold.
* `Blob.decode_encode_append`: a blob, with anything after it, is read back as what was written.
* `Artifact.self_delimiting`: so each value has a blob of its own, and a field that is absent is
  never taken for one that is zero or empty.
-/

namespace TrackCatalog

/-- The texts of a track are short enough to be written. -/
structure Track.Fits (t : Track) : Prop where
  name : Codec.FitsText t.name
  version : ∀ v ∈ t.version, Codec.FitsText v

/-- The lists of a catalog, and the texts in them, are short enough to be written. -/
structure Catalog.Fits (c : Catalog) : Prop where
  length_tracks : Codec.IsLength c.tracks.length
  tracks : ∀ t ∈ c.tracks, t.Fits
  length_aliases : Codec.IsLength c.aliases.length

/-- The texts and lists of a pack are short enough to be written. -/
structure Pack.Fits (p : Pack) : Prop where
  name : Codec.FitsText p.name
  authorNames : Codec.FitsText p.authorNames
  description : Codec.FitsText p.description
  length_race : Codec.IsLength p.raceTracks.length
  length_coin : Codec.IsLength p.coinTracks.length
  length_balloon : Codec.IsLength p.balloonTracks.length
  length_unreleased : Codec.IsLength p.unreleasedTracks.length
  unreleased : ∀ t ∈ p.unreleasedTracks, t.Fits

namespace Codec

theorem hash_roundTrips : hash.RoundTrips fun _ => True := by
  intro h _ rest
  have hl : 20 ≤ (h.bytes ++ rest).length := by simp [h.length_bytes]
  simp only [hash, dif_pos hl]
  simp [← h.length_bytes]

theorem track_roundTrips : track.RoundTrips Track.Fits := by
  have fields := hash_roundTrips.pair (word_roundTrips.option.pair (text_roundTrips.pair
    (word_roundTrips.pair (word_roundTrips.pair
      (word_roundTrips.option.pair text_roundTrips.option)))))
  refine (fields.map fun t => rfl).mono fun t ht => ?_
  exact ⟨trivial, fun _ _ => trivial, ht.name, trivial, trivial, fun _ _ => trivial, ht.version⟩

theorem aliases_roundTrips : aliases.RoundTrips fun as => IsLength as.length := by
  have entry : aliasEntry.RoundTrips fun _ => True :=
    ((hash_roundTrips.pair hash_roundTrips).map fun a => rfl).mono fun _ _ => ⟨trivial, trivial⟩
  exact entry.list.mono fun as h => ⟨h, fun _ _ => trivial⟩

theorem catalog_roundTrips : catalog.RoundTrips Catalog.Fits := by
  refine ((track_roundTrips.list.pair aliases_roundTrips).map fun c => rfl).mono fun c hc => ?_
  exact ⟨⟨hc.length_tracks, hc.tracks⟩, hc.length_aliases⟩

theorem pack_roundTrips : pack.RoundTrips Pack.Fits := by
  have fields := text_roundTrips.pair (text_roundTrips.pair (text_roundTrips.pair
    (hash_roundTrips.list.pair (hash_roundTrips.list.pair (hash_roundTrips.list.pair
      track_roundTrips.list)))))
  refine (fields.map fun p => rfl).mono fun p hp => ?_
  exact ⟨hp.name, hp.authorNames, hp.description, ⟨hp.length_race, fun _ _ => trivial⟩,
    ⟨hp.length_coin, fun _ _ => trivial⟩, ⟨hp.length_balloon, fun _ _ => trivial⟩,
    hp.length_unreleased, hp.unreleased⟩

end Codec

/-- What a blob can hold. -/
inductive Artifact where
  | track
  | catalog
  | aliases
  | pack
  deriving DecidableEq

namespace Artifact

/-- The values of an artifact. -/
abbrev Value : Artifact → Type
  | track => Track
  | catalog => Catalog
  | aliases => List AliasEntry
  | pack => Pack

/-- How the values of an artifact are written. -/
def codec : (k : Artifact) → Codec k.Value
  | track => .track
  | catalog => .catalog
  | aliases => .aliases
  | pack => .pack

/-- All texts and lists in the value are shorter than `2 ^ 64`. -/
def Fits : (k : Artifact) → k.Value → Prop
  | track, t => Track.Fits t
  | catalog, c => Catalog.Fits c
  | aliases, as => Codec.IsLength as.length
  | pack, p => Pack.Fits p

theorem roundTrips : (k : Artifact) → k.codec.RoundTrips k.Fits
  | track => Codec.track_roundTrips
  | catalog => Codec.catalog_roundTrips
  | aliases => Codec.aliases_roundTrips
  | pack => Codec.pack_roundTrips

end Artifact

namespace Blob

/-- What follows the header is the payload. -/
theorem payload_header_append (body : Bytes) : payload (header ++ body) = .ok body := by
  have hm : (header ++ body).take 8 = magic := rfl
  have hv : versionOf (((header ++ body).drop 8).take 4) = schemaVersion := rfl
  have hd : (header ++ body).drop 12 = body := rfl
  have hl : ¬ (header ++ body).length < 12 := by
    rw [List.length_append]
    have : header.length = 12 := rfl
    omega
  simp only [payload, if_neg hl, hm, hv, hd, ne_eq, not_true_eq_false, if_false]

/-- **A blob is read back**, whatever bytes follow it. -/
theorem decode_encode_append {α : Type} {c : Codec α} {P : α → Prop} (hc : c.RoundTrips P) {a : α}
    (ha : P a) (rest : Bytes) : decode c (encode c a ++ rest) = .ok a := by
  simp only [decode, encode, List.append_assoc, payload_header_append, hc a ha rest]

/-- A blob with nothing after it is read back. -/
theorem decode_encode {α : Type} {c : Codec α} {P : α → Prop} (hc : c.RoundTrips P) {a : α}
    (ha : P a) : decode c (encode c a) = .ok a := by
  have h := decode_encode_append hc ha []
  rwa [List.append_nil] at h

end Blob

namespace Artifact

/-- Two values of an artifact do not share a blob. -/
theorem encode_injective (k : Artifact) {v w : k.Value}
    (h : Blob.encode k.codec v = Blob.encode k.codec w) (hv : k.Fits v) (hw : k.Fits w) : v = w :=
  k.roundTrips.encode_injective hv hw (List.append_cancel_left h)

/-- **Every artifact reads back as what was written**, whatever follows it, so no two values share a
blob; in particular a number that is absent is not one that is zero, and a version that is absent is
not an empty one. -/
theorem self_delimiting :
    (∀ (k : Artifact) (v : k.Value), k.Fits v → ∀ rest,
      Blob.decode k.codec (Blob.encode k.codec v ++ rest) = .ok v) ∧
    (∀ (k : Artifact) (v w : k.Value), k.Fits v → k.Fits w →
      Blob.encode k.codec v = Blob.encode k.codec w → v = w) ∧
    ∀ t : Track, t.Fits →
      Blob.encode .track { t with externalId := some 0 } ≠
        Blob.encode .track { t with externalId := none } ∧
      Blob.encode .track { t with music := some 0 } ≠
        Blob.encode .track { t with music := none } ∧
      Blob.encode .track { t with version := some "" } ≠
        Blob.encode .track { t with version := none } := by
  refine ⟨fun k v hv rest => Blob.decode_encode_append k.roundTrips hv rest,
    fun k v w hv hw h => k.encode_injective h hv hw, fun t ht => ?_⟩
  have empty : Codec.FitsText "" := by decide
  refine ⟨fun h => ?_, fun h => ?_, fun h => ?_⟩
  · have := track.encode_injective h ⟨ht.name, ht.version⟩ ⟨ht.name, ht.version⟩
    simp at this
  · have := track.encode_injective h ⟨ht.name, ht.version⟩ ⟨ht.name, ht.version⟩
    simp at this
  · have := track.encode_injective h ⟨ht.name, by simpa using empty⟩ ⟨ht.name, by simp⟩
    simp at this

namespace Sample

/-- A track whose name takes more bytes than characters and whose numbers take several. -/
def accented : Track :=
  ⟨⟨List.replicate 20 0xFE, by decide⟩, some 4294967295, "Bowserſchloß é", 16384, 1, some 0, some ""⟩

theorem fits_accented : accented.Fits := ⟨by decide +kernel, by decide +kernel⟩

/-- Its catalog is read back from the front of a longer byte string. -/
theorem decode_accented :
    Artifact.catalog.Fits ⟨[accented, accented], []⟩ ∧
      Blob.decode .catalog (Blob.encode .catalog ⟨[accented, accented], []⟩ ++ [0x80, 0xFF]) =
        .ok ⟨[accented, accented], []⟩ :=
  have fits : Artifact.catalog.Fits ⟨[accented, accented], []⟩ :=
    ⟨by decide, by simp [fits_accented], by decide⟩
  ⟨fits, self_delimiting.1 .catalog _ fits _⟩

end Sample

end Artifact

end TrackCatalog
