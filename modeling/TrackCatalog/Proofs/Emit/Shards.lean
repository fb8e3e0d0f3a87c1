import Mathlib.Data.List.Nodup
import TrackCatalog.Proofs.Emit.ShardName
import TrackCatalog.Proofs.Files.Directories

/-!
# Writing shards and taking stale ones away

Both loops work in one directory, one file at a time. What each leaves is said of every run, also of
one that stops at an error; what a run that succeeds achieves comes on top.

* `Wrote`, `wrote_writeShards`: whatever is new after writing is the whole blob of one of the tracks.
* `exists_readFile_of_writeShards`: after success there is a shard for every hash.
* `Cleared`, `cleared_removeStale`: whatever is gone after clearing had a stale name.
* `gone_of_removeStale`: after success no stale name is left.
-/

namespace TrackCatalog

open FileTree (KeepsDirs ChangedAt)

variable {α : Type} {t t' u : FileTree} {dir path name : String} {l m : Location} {k : Track}
  {ks : List Track} {shards names : List String}

theorem yields_writeBlob {c : Codec α} {a : α} :
    (writeBlob c path a).Yields t () t' ↔ t.replaceFile path (Blob.encode c a) = .ok t' := by
  rw [writeBlob, writeAtomic, Task.yields_change, Except.mapError_eq_ok_iff]

/-- A blob that is not written leaves the tree. -/
theorem tree_writeBlob {c : Codec α} {a : α} {e : CatalogError}
    (h : ((writeBlob c path a).run t).result = .error e) : ((writeBlob c path a).run t).tree = t := by
  unfold writeBlob writeAtomic at h ⊢
  exact Task.tree_change h

/-- A shard lies in the directory of the shards, under its name. -/
theorem find_shardPath {h : Hash} (hm : t.find (shardPath dir h) = .ok m) :
    ∃ l, t.base (tracksDir dir) = .ok l ∧ m = l ++ [shardName h] := by
  obtain ⟨l, hl, -, he⟩ :=
    FileTree.find_join_name (isPart_shardName h) (shardName_ne_special h) hm
  exact ⟨l, hl, he⟩

/-- **No two hashes share the place of a shard.** -/
theorem hash_eq_of_find_shardPath {h h' : Hash} (hm : t.find (shardPath dir h) = .ok m)
    (hm' : t.find (shardPath dir h') = .ok m) : h = h' := by
  obtain ⟨l, -, rfl⟩ := find_shardPath hm
  obtain ⟨l', -, he⟩ := find_shardPath hm'
  have hn : [shardName h] = [shardName h'] := (List.append_inj' he rfl).2
  exact shardName_injective (by simpa using hn)

/-! ## Writing -/

/-- Beyond what `t` has, `t'` has blobs of these tracks, each at the path of its shard. -/
structure Wrote (t t' : FileTree) (dir : String) (ks : List Track) : Prop where
  keepsDirs : KeepsDirs t t'
  shape : ∀ m, t'.shape? m = t.shape? m ∨
    ∃ k ∈ ks, t'.find (shardPath dir k.hash) = .ok m ∧ t'.IsFile m (Blob.encode .track k)

theorem Wrote.refl (t : FileTree) (dir : String) (ks : List Track) : Wrote t t dir ks :=
  ⟨.refl t, fun _ => .inl rfl⟩

/-- One blob is written before the others. -/
theorem Wrote.cons (hl : t.find (shardPath dir k.hash) = .ok l) (hd : ¬ t.IsDir l)
    (hc : ChangedAt t u l (some (.file (Blob.encode .track k)))) (h : Wrote u t' dir ks) :
    Wrote t t' dir (k :: ks) := by
  have hk := (hc.keepsDirs hd).trans h.keepsDirs
  refine ⟨hk, fun m => ?_⟩
  rcases h.shape m with hs | ⟨k', hk', hf, hfile⟩
  · by_cases hm : m = l
    · subst hm
      refine .inr ⟨k, List.mem_cons_self, hk.find hl, ?_⟩
      rw [FileTree.IsFile, hs]
      exact hc.shape_self
    · rw [hs, hc.shape_of_ne hm]
      exact .inl rfl
  · exact .inr ⟨k', List.mem_cons_of_mem _ hk', hf, hfile⟩

/-- **What is new after writing is the blob of one of the tracks**, wherever it stopped. -/
theorem wrote_writeShards (dir : String) (ks : List Track) (t : FileTree) :
    Wrote t ((writeShards dir ks).run t).tree dir ks := by
  induction ks generalizing t with
  | nil => exact .refl t dir []
  | cons k ks ih =>
    rw [writeShards]
    rcases Task.tree_bind (writeBlob .track (shardPath dir k.hash) k) (fun _ => writeShards dir ks) t
      with ⟨e, he, htree⟩ | ⟨_, hy, htree⟩
    · rw [htree, tree_writeBlob he]
      exact .refl t dir _
    · rw [htree]
      obtain ⟨l, hl, hd, hc⟩ := FileTree.changedAt_of_replaceFile (yields_writeBlob.1 hy)
      exact .cons hl hd hc (ih _)

theorem wrote_of_tree (h : ((writeShards dir ks).run t).tree = t') : Wrote t t' dir ks := by
  rw [← h]
  exact wrote_writeShards dir ks t

theorem Wrote.shape_of_base (h : Wrote t t' dir ks) (hl : t'.base (tracksDir dir) = .ok l)
    (m : Location) : t'.shape? m = t.shape? m ∨ ∃ k ∈ ks, m = l ++ [shardName k.hash] := by
  rcases h.shape m with hs | ⟨k, hk, hf, -⟩
  · exact .inl hs
  · exact .inr ⟨k, hk,
      FileTree.find_join_of_base (isPart_shardName _) (shardName_ne_special _) hl hf⟩

/-- **After success there is a shard for every hash**, of a track with this hash. -/
theorem exists_readFile_of_writeShards (h : (writeShards dir ks).Yields t () t') (hk : k ∈ ks) :
    ∃ k' ∈ ks, k'.hash = k.hash ∧
      t'.readFile (shardPath dir k.hash) = .ok (Blob.encode .track k') := by
  induction ks generalizing t with
  | nil => simp at hk
  | cons first ks ih =>
    rw [writeShards, Task.yields_bind] at h
    obtain ⟨_, u, hfirst, hrest⟩ := h
    rcases List.mem_cons.1 hk with rfl | hk
    · obtain ⟨l, hl, hd, hc⟩ := FileTree.changedAt_of_replaceFile (yields_writeBlob.1 hfirst)
      have hw := wrote_of_tree hrest.2
      have hl' := hw.keepsDirs.find ((hc.keepsDirs hd).find hl)
      rcases hw.shape l with hs | ⟨k', hk', hf, hfile⟩
      · refine ⟨k, List.mem_cons_self, rfl, FileTree.readFile_eq_ok.2 ⟨l, hl', ?_⟩⟩
        rw [FileTree.IsFile, hs]
        exact hc.shape_self
      · -- a later track in its place has its hash
        exact ⟨k', List.mem_cons_of_mem _ hk', hash_eq_of_find_shardPath hf hl',
          FileTree.readFile_eq_ok.2 ⟨l, hl', hfile⟩⟩
    · obtain ⟨k', hk', he, hr⟩ := ih hrest hk
      exact ⟨k', List.mem_cons_of_mem _ hk', he, hr⟩

/-- Without two tracks of one hash every track can be read at its path. -/
theorem readFile_of_writeShards (hn : (ks.map Track.hash).Nodup)
    (h : (writeShards dir ks).Yields t () t') (hk : k ∈ ks) :
    t'.readFile (shardPath dir k.hash) = .ok (Blob.encode .track k) := by
  obtain ⟨k', hk', he, hr⟩ := exists_readFile_of_writeShards h hk
  rwa [List.inj_on_of_nodup_map hn hk' hk he] at hr

/-! ## Clearing -/

/-- `t'` is `t` without some files with stale names among these. -/
structure Cleared (t t' : FileTree) (dir : String) (shards names : List String) : Prop where
  keepsDirs : KeepsDirs t t'
  shape : ∀ m, t'.shape? m = t.shape? m ∨ t'.shape? m = none ∧
    ∃ name ∈ names, isStale shards name ∧ t'.find (Path.join (tracksDir dir) name) = .ok m

theorem Cleared.refl (t : FileTree) (dir : String) (shards names : List String) :
    Cleared t t dir shards names := ⟨.refl t, fun _ => .inl rfl⟩

theorem Cleared.of_cons (h : Cleared t t' dir shards names) :
    Cleared t t' dir shards (name :: names) := by
  refine ⟨h.keepsDirs, fun m => ?_⟩
  rcases h.shape m with hs | ⟨hm, name', hn, hst⟩
  · exact .inl hs
  · exact .inr ⟨hm, name', List.mem_cons_of_mem _ hn, hst⟩

/-- One file is taken away before the others. -/
theorem Cleared.cons (hst : isStale shards name)
    (hl : t.find (Path.join (tracksDir dir) name) = .ok l) (hd : ¬ t.IsDir l)
    (hc : ChangedAt t u l none) (h : Cleared u t' dir shards names) :
    Cleared t t' dir shards (name :: names) := by
  have hk := (hc.keepsDirs hd).trans h.keepsDirs
  refine ⟨hk, fun m => ?_⟩
  rcases h.of_cons.shape m with hs | hm
  · by_cases hml : m = l
    · subst hml
      exact .inr ⟨hs.trans hc.shape_self, name, List.mem_cons_self, hst, hk.find hl⟩
    · rw [hs, hc.shape_of_ne hml]
      exact .inl rfl
  · exact .inr hm

/-- Taking away one stale file, as a step of the loop. -/
theorem yields_removeFile {path : String} :
    (Task.change fun t => (t.removeFile path).mapError (CatalogError.file path)).Yields t () t' ↔
      t.removeFile path = .ok t' := by
  rw [Task.yields_change, Except.mapError_eq_ok_iff]

/-- **What is gone after clearing had a stale name**, wherever it stopped. -/
theorem cleared_removeStale (dir : String) (shards names : List String) (t : FileTree) :
    Cleared t ((removeStale dir shards names).run t).tree dir shards names := by
  induction names generalizing t with
  | nil => exact .refl t dir shards []
  | cons name names ih =>
    rw [removeStale]
    split
    · next hst =>
      rcases Task.tree_bind (Task.change fun t => (t.removeFile (Path.join (tracksDir dir)
          name)).mapError (.file (Path.join (tracksDir dir) name)))
          (fun _ => removeStale dir shards names >>= fun removed => pure (removed + 1)) t
        with ⟨e, he, htree⟩ | ⟨_, hy, htree⟩
      · rw [htree, Task.tree_change he]
        exact .refl t dir shards _
      · rw [htree]
        obtain ⟨l, bytes, hl, hf, hc⟩ :=
          FileTree.changedAt_of_removeFile (yields_removeFile.1 hy)
        refine .cons hst hl hf.not_isDir hc ?_
        rw [Task.tree_bind_pure]
        exact ih _
    · exact (ih t).of_cons

theorem cleared_of_tree (h : ((removeStale dir shards names).run t).tree = t') :
    Cleared t t' dir shards names := by
  rw [← h]
  exact cleared_removeStale dir shards names t

theorem Cleared.shape_of_base (h : Cleared t t' dir shards names)
    (hn : ∀ name ∈ names, IsName name) (hl : t'.base (tracksDir dir) = .ok l) (m : Location) :
    t'.shape? m = t.shape? m ∨
      t'.shape? m = none ∧ ∃ name ∈ names, isStale shards name ∧ m = l ++ [name] := by
  rcases h.shape m with hs | ⟨hm, name, hmem, hst, hf⟩
  · exact .inl hs
  · have hname := hn name hmem
    exact .inr ⟨hm, name, hmem, hst,
      FileTree.find_join_of_base (.of_isName hname) hname.1 hl hf⟩

/-- What is gone was a file, as no directory is taken away. -/
theorem Cleared.shape_or_removed (h : Cleared t t' dir shards names)
    (hn : ∀ name ∈ names, IsName name) (hl : t'.base (tracksDir dir) = .ok l) (m : Location) :
    t'.shape? m = t.shape? m ∨
      t'.shape? m = none ∧ (∃ bytes, t.IsFile m bytes) ∧
        ∃ name ∈ names, isStale shards name ∧ m = l ++ [name] := by
  rcases h.shape_of_base hn hl m with hs | ⟨hnone, hname⟩
  · exact .inl hs
  · cases hshape : t.shape? m with
    | none => exact .inl hnone
    | some shape =>
      cases shape with
      | dir => exact absurd hnone (h.keepsDirs.isDir m hshape).shape?_ne_none
      | file bytes => exact .inr ⟨hnone, ⟨bytes, hshape⟩, hname⟩

/-- **After success no stale name is left.** -/
theorem gone_of_removeStale {n : Nat} (h : (removeStale dir shards names).Yields t n t')
    (hm : name ∈ names) (hst : isStale shards name) :
    ∃ l, t'.find (Path.join (tracksDir dir) name) = .ok l ∧ t'.shape? l = none := by
  induction names generalizing t n with
  | nil => simp at hm
  | cons name' names ih =>
    rw [removeStale] at h
    split at h
    · rw [Task.yields_bind] at h
      obtain ⟨_, u, hfirst, h⟩ := h
      rw [Task.yields_bind] at h
      obtain ⟨r, u', hrest, hp⟩ := h
      obtain ⟨-, rfl⟩ := Task.yields_pure.1 hp
      rcases List.mem_cons.1 hm with rfl | hm
      · obtain ⟨l, bytes, hl, hf, hc⟩ :=
          FileTree.changedAt_of_removeFile (yields_removeFile.1 hfirst)
        have hcl := cleared_of_tree hrest.2
        have hk := (hc.keepsDirs hf.not_isDir).trans hcl.keepsDirs
        refine ⟨l, hk.find hl, ?_⟩
        rcases hcl.shape l with hs | ⟨hs, -⟩
        · exact hs.trans hc.shape_self
        · exact hs
      · exact ih hrest hm
    · next hnot =>
      rcases List.mem_cons.1 hm with rfl | hm
      · exact absurd hst hnot
      · exact ih h hm

end TrackCatalog
