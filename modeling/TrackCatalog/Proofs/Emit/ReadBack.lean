import TrackCatalog.Proofs.Assembly.Closure
import TrackCatalog.Proofs.Blob.Size
import TrackCatalog.Proofs.Emit.Sharded

/-!
# Outputs are read back

* `readBlob_of_readFile`: whatever could be written to a file is read back.
* `readFile_of_writeCatalog`: the file of the single-file layout.
* `FileTree.HoldsShards.readBlob_track`, `readBlob_aliases`, `isSome_get?_of_open?`,
  `exists_track_of_readFile`: the files of the sharded layout.
-/

namespace TrackCatalog

variable {α : Type} {t t' : FileTree} {dir path : String} {l : Location} {c : Catalog}
  {s : EmitSummary}

/-- **A value that stands in a file is read back**: no file is so large that a length in it could
not be written. -/
theorem readBlob_of_readFile {k : Codec α} {P : α → Prop} (hr : k.RoundTrips P)
    (hs : k.ShortFits P) {a : α} (h : t.readFile path = .ok (Blob.encode k a)) :
    readBlob k t path = .ok a := by
  obtain ⟨m, -, hf⟩ := FileTree.readFile_eq_ok.1 h
  have hsize := FileTree.length_le_maxFile hf
  rw [Blob.encode, List.length_append] at hsize
  have hmax : maxFile < UInt64.size := by decide
  have ha : P a := hs a (by omega)
  rw [readBlob, h]
  dsimp only
  rw [Blob.decode_encode hr ha]
  rfl

theorem readFile_of_writeCatalog (h : (writeCatalog c path).Yields t s t') :
    s = c.summary ∧ t'.readFile path = .ok (Blob.encode .catalog c) := by
  -- what follows the directories, which are created or not
  have written : ∀ u, (do
      writeBlob .catalog path c
      Task.note (.wroteCatalog path c.summary.text)
      return c.summary : Task CatalogError EmitSummary).Yields u s t' →
      s = c.summary ∧ t'.readFile path = .ok (Blob.encode .catalog c) := by
    intro u hu
    rw [Task.yields_bind] at hu
    obtain ⟨_, v, hwrite, hu⟩ := hu
    rw [Task.yields_bind] at hu
    obtain ⟨_, w, hnote, hu⟩ := hu
    obtain rfl := Task.yields_note.1 hnote
    obtain ⟨rfl, rfl⟩ := Task.yields_pure.1 hu
    exact ⟨rfl, FileTree.readFile_of_replaceFile (yields_writeBlob.1 hwrite)⟩
  rw [writeCatalog] at h
  split at h
  · exact written t h
  · split at h
    · exact written t h
    · rw [Task.yields_bind] at h
      obtain ⟨_, u, -, h⟩ := h
      exact written u h

namespace FileTree.HoldsShards

variable (h : t.HoldsShards dir l c)

include h

/-- The shard of a track that the catalog finds holds that track. -/
theorem readBlob_track {x : Hash} {k : Track} (hk : c.get? x = some k) :
    readBlob .track t (shardPath dir x) = .ok k := by
  have hfile := h.shard k (Catalog.mem_of_get? hk)
  rw [Catalog.hash_of_get? hk] at hfile
  exact readBlob_of_readFile Codec.track_roundTrips Codec.track_shortFits hfile

theorem exists_open? {x : Hash} {k : Track} (hk : c.get? x = some k) :
    ∃ n, t.open? (shardPath dir x) = .ok n := by
  have hfile := h.shard k (Catalog.mem_of_get? hk)
  rw [Catalog.hash_of_get? hk] at hfile
  obtain ⟨m, hf, hm⟩ := FileTree.readFile_eq_ok.1 hfile
  exact ⟨_, FileTree.open?_eq_ok.2 ⟨m, hf, FileTree.isFile_iff.1 hm⟩⟩

theorem readBlob_aliases : readBlob .aliases t (aliasFile dir) = .ok c.aliases :=
  readBlob_of_readFile Codec.aliases_roundTrips Codec.aliases_shortFits h.aliases

/-- Nothing stands at the path of a shard unless the catalog has the track. -/
theorem isSome_get?_of_open? {x : Hash} {n : Node} (hn : t.open? (shardPath dir x) = .ok n) :
    (c.get? x).isSome := by
  obtain ⟨m, hf, hm⟩ := FileTree.open?_eq_ok.1 hn
  have hb := FileTree.base_join_of_directory isPart_tracks h.directory
  obtain rfl := FileTree.find_join_of_base (isPart_shardName x) (shardName_ne_special x) hb hf
  have hblob : isBlobName (shardName x) := by simp [isBlobName, extension?_shardName]
  have hname : shardName x ∈ t.names l := by
    rw [FileTree.mem_names_iff (FileTree.directory_eq_ok.1 h.directory).2, ne_eq,
      FileTree.shape?_eq_none_iff, hm]
    simp
  have hmem := h.blobs.mem_iff.1 (List.mem_filter.2 ⟨hname, hblob⟩)
  obtain ⟨k, hk, rfl⟩ := mem_shardNames.1 hmem
  rw [Option.isSome_iff_ne_none, ne_eq, Catalog.get?_eq_none_iff]
  exact fun hall => hall k hk rfl

/-- What is read at the path of a shard is a track of the catalog. -/
theorem exists_track_of_readFile {x : Hash} {bytes : Bytes}
    (hread : t.readFile (shardPath dir x) = .ok bytes) :
    ∃ k ∈ c.tracks, k.hash = x ∧ Blob.encode .track k = bytes := by
  obtain ⟨m, hm, hf⟩ := FileTree.readFile_eq_ok.1 hread
  have hopen := FileTree.open?_eq_ok.2 ⟨m, hm, FileTree.isFile_iff.1 hf⟩
  obtain ⟨k, hk⟩ := Option.isSome_iff_exists.1 (h.isSome_get?_of_open? hopen)
  have hmem := Catalog.mem_of_get? hk
  have hhash := Catalog.hash_of_get? hk
  have hshard := h.shard k hmem
  rw [hhash] at hshard
  exact ⟨k, hmem, hhash, Except.ok.inj (hshard.symm.trans hread)⟩

end FileTree.HoldsShards

end TrackCatalog
