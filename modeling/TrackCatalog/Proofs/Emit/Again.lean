import TrackCatalog.Proofs.Emit.Frame
import TrackCatalog.Proofs.Files.Apart
import TrackCatalog.Proofs.Files.Settled

/-!
# Writing a second time

What was written is written again without a change: the directories are there, each file stands
with the bytes it is to have, and no blob is left that would be stale. Outside the directory that
the output's path enters nothing changed the first time either.

* `writeCatalog_again`, `writeSharded_again`: both layouts a second time.
* `sameOutside_writeCatalog`, `sameOutside_writeSharded`: both layouts, looked at from outside.
-/

namespace TrackCatalog

open FileTree (KeepsDirs SameOutside)
open TrackCatalog.Path (Enters)

variable {α : Type} {t t' t₁ u : FileTree} {dir path name : String} {l : Location} {c : Catalog}
  {order : ListingOrder} {s : EmitSummary} {ks : List Track} {shards names : List String}

/-! ## Steps -/

theorem createOutputDir_again (h : (createOutputDir dir).Yields t () t₁) (hk : KeepsDirs t₁ u) :
    (createOutputDir dir).Yields u () u :=
  yields_createOutputDir.2 (FileTree.createDirs_eq_self (yields_createOutputDir.1 h) hk)

theorem writeBlob_again {k : Codec α} {a : α} (h : (writeBlob k path a).Yields t () t₁)
    (hk : KeepsDirs t u) (hf : u.readFile path = .ok (Blob.encode k a)) :
    (writeBlob k path a).Yields u () u :=
  yields_writeBlob.2 (FileTree.replaceFile_eq_self (yields_writeBlob.1 h) hk hf)

/-- Shards that stand are written again in turn. -/
theorem writeShards_again (h : (writeShards dir ks).Yields t () t₁) (hk : KeepsDirs t₁ u)
    (hf : ∀ k ∈ ks, u.readFile (shardPath dir k.hash) = .ok (Blob.encode .track k)) :
    (writeShards dir ks).Yields u () u := by
  induction ks generalizing t with
  | nil => exact Task.yields_pure.2 ⟨rfl, rfl⟩
  | cons k ks ih =>
    have hkeeps := (wrote_writeShards dir (k :: ks) t).keepsDirs
    rw [h.2] at hkeeps
    obtain ⟨hfirst, hrest⟩ := List.forall_mem_cons.1 hf
    rw [writeShards, Task.yields_bind] at h ⊢
    obtain ⟨_, v, hwrite, hmore⟩ := h
    exact ⟨(), u, writeBlob_again hwrite (hkeeps.trans hk) hfirst, ih hmore hrest⟩

/-- Where no name is stale nothing is taken away. -/
theorem removeStale_of_fresh (h : ∀ name ∈ names, ¬ isStale shards name) :
    removeStale dir shards names = pure 0 := by
  induction names with
  | nil => rfl
  | cons name names ih =>
    obtain ⟨hname, hnames⟩ := List.forall_mem_cons.1 h
    rw [removeStale, if_neg hname, ih hnames]

/-- Among the shards of a catalog no blob is stale. -/
theorem FileTree.HoldsShards.not_isStale (h : t.HoldsShards dir l c) (hn : name ∈ t.names l) :
    ¬ isStale c.shardNames name := by
  intro hst
  obtain ⟨hb, hnot⟩ := isStale_iff.1 hst
  exact hnot (h.blobs.mem_iff.1 (List.mem_filter.2 ⟨hn, hb⟩))

/-! ## One file -/

theorem yields_writeCatalogFile :
    (writeCatalogFile c path).Yields t s t' ↔
      t.replaceFile path (Blob.encode .catalog c) = .ok t' ∧ s = c.summary := by
  simp only [writeCatalogFile, Task.yields_bind, Task.yields_note, Task.yields_pure]
  constructor
  · rintro ⟨_, _, hwrite, _, _, rfl, rfl, rfl⟩
    exact ⟨yields_writeBlob.1 hwrite, rfl⟩
  · rintro ⟨hwrite, rfl⟩
    exact ⟨(), t', yields_writeBlob.2 hwrite, (), t', rfl, rfl, rfl⟩

theorem writeCatalogFile_again (h : (writeCatalogFile c path).Yields t s t') :
    (writeCatalogFile c path).Yields t' s t' := by
  obtain ⟨hwrite, hs⟩ := yields_writeCatalogFile.1 h
  obtain ⟨m, -, hnd, hc⟩ := FileTree.changedAt_of_replaceFile hwrite
  exact yields_writeCatalogFile.2 ⟨FileTree.replaceFile_eq_self hwrite (hc.keepsDirs hnd)
    (FileTree.readFile_of_replaceFile hwrite), hs⟩

/-- **A single file is written again**, and this changes nothing. -/
theorem writeCatalog_again (h : (writeCatalog c path).Yields t s t') :
    (writeCatalog c path).Yields t' s t' := by
  rcases writeCatalog_eq c path with he | ⟨parent, -, -, he⟩
  · rw [he] at h ⊢
    exact writeCatalogFile_again h
  · rw [he, Task.yields_bind] at h ⊢
    obtain ⟨_, t₁, hdir, hfile⟩ := h
    have hk := (spares_writeCatalogFile c path t₁).keepsDirs
    rw [hfile.2] at hk
    exact ⟨(), t', createOutputDir_again hdir hk, writeCatalogFile_again hfile⟩

/-- **A single file changes nothing outside** the directory that its path enters. -/
theorem sameOutside_writeCatalog (h : (writeCatalog c path).Yields t s t') (hp : Enters path name)
    (hhome : t.IsDir t.home) : SameOutside t t' (t.home ++ [name]) := by
  have hfile : ∀ u, (writeCatalogFile c path).Yields u s t' →
      SameOutside u t' (u.home ++ [name]) := by
    intro u hu
    obtain ⟨m, hm, -, hc⟩ := FileTree.changedAt_of_replaceFile (yields_writeCatalogFile.1 hu).1
    exact hc.sameOutside (FileTree.prefix_of_find hp hm)
  rcases writeCatalog_eq c path with he | ⟨parent, hparent, hne, he⟩
  · rw [he] at h
    exact hfile t h
  · rw [he, Task.yields_bind] at h
    obtain ⟨_, t₁, hdir, hwrite⟩ := h
    have hg := FileTree.grown_createDirs t parent
    rw [yields_createOutputDir.1 hdir] at hg
    have hlast := hfile t₁ hwrite
    rw [hg.home] at hlast
    exact (hg.sameOutside (hp.parent hparent hne) hhome).trans hlast

/-! ## Shards -/

/-- **Shards are written again**, and this changes nothing: there is nothing left to take away. -/
theorem writeSharded_again (hn : (c.tracks.map Track.hash).Nodup)
    (h : (writeSharded order c dir).Yields t s t') (order' : ListingOrder) :
    (writeSharded order' c dir).Yields t' s t' := by
  obtain ⟨hs, t₁, t₂, t₃, l, hst⟩ := stages_of_writeSharded h
  have hold := hst.holdsShards hn
  have hlate : KeepsDirs t₂ t' := hst.keepsDirs.trans hst.keepsDirs_last
  have hearly : KeepsDirs t₁ t' := hst.wrote.keepsDirs.trans hlate
  have hfresh : ∀ name ∈ order'.reorder (t'.names l), ¬ isStale c.shardNames name :=
    fun name hm => hold.not_isStale ((order'.perm _).mem_iff.1 hm)
  refine yields_writeSharded.2 ⟨t', t', t', l, 0, createOutputDir_again hst.created hearly,
    writeShards_again hst.write hlate hold.shard, hold.directory, ?_,
    FileTree.replaceFile_eq_self hst.aliasTable hst.keepsDirs_last hold.aliases, hs⟩
  rw [removeStale_of_fresh hfresh]
  exact Task.yields_pure.2 ⟨rfl, rfl⟩

theorem Stages.sameOutside {t₂ t₃ : FileTree} (h : Stages t t₁ t₂ t₃ t' dir l c)
    (hp : Enters dir name) (hhome : t.IsDir t.home) : SameOutside t t' (t.home ++ [name]) := by
  have hdir : Enters (tracksDir dir) name := hp.join_name isPart_tracks (by decide)
  have halias : Enters (aliasFile dir) name := hp.join_name isPart_alias (by decide)
  have hgrown := h.grown.sameOutside hdir hhome
  have hhome₂ := h.wrote.keepsDirs.home.trans h.grown.home
  have hhome₃ := h.keepsDirs.home.trans hhome₂
  have hl : t.home ++ [name] <+: l := by
    have hpre := FileTree.prefix_of_find hdir (FileTree.directory_eq_ok.1 h.directory).1
    rwa [hhome₂] at hpre
  -- both loops work on entries of the shards' directory
  have hbelow : ∀ m k, m = l ++ [k] → t.home ++ [name] <+: m :=
    fun m k hm => hm ▸ hl.trans (List.prefix_append _ _)
  have hbase := FileTree.base_join_of_directory isPart_tracks h.directory
  have hwrote : SameOutside t₁ t₂ (t.home ++ [name]) :=
    ⟨h.wrote.keepsDirs.home, fun m hm => (h.wrote.shape_of_base hbase m).resolve_right
      fun ⟨_, _, he⟩ => hm (hbelow m _ he)⟩
  have hcleared : SameOutside t₂ t₃ (t.home ++ [name]) :=
    ⟨h.keepsDirs.home, fun m hm => (h.cleared m).resolve_right
      fun ⟨_, _, he⟩ => hm (hbelow m _ he)⟩
  obtain ⟨a, ha, -, hc⟩ := FileTree.changedAt_of_replaceFile h.aliasTable
  have hpre := FileTree.prefix_of_find halias ha
  rw [hhome₃] at hpre
  exact hgrown.trans (hwrote.trans (hcleared.trans (hc.sameOutside hpre)))

/-- **Shards change nothing outside** the directory that the output's path enters. -/
theorem sameOutside_writeSharded (h : (writeSharded order c dir).Yields t s t')
    (hp : Enters dir name) (hhome : t.IsDir t.home) : SameOutside t t' (t.home ++ [name]) := by
  obtain ⟨-, t₁, t₂, t₃, l, hst⟩ := stages_of_writeSharded h
  exact hst.sameOutside hp hhome

end TrackCatalog
