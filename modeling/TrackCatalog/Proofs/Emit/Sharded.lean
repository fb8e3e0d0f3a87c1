import TrackCatalog.Proofs.Emit.Shards

/-!
# What a sharded output holds

* `FileTree.HoldsShards`: one shard per track, no other blob beside them, and the alias table.
* `stages_of_writeSharded`: the steps of writing, and what each does.
* `Stages.holdsShards`: whatever stood there before, in the end there is just the catalog.
* `Stages.shape_kept`: what is no blob is left alone, up to directories on the way.
* `writeSharded_leaves_just_catalog`: both, for every run that succeeds.
-/

namespace TrackCatalog

open FileTree (KeepsDirs ChangedAt)

variable {t t' : FileTree} {dir name : String} {l m below : Location} {c : Catalog}
  {order : ListingOrder} {s : EmitSummary}

/-- The name has the extension of a blob. -/
def isBlobName (name : String) : Bool := Path.extension? name = some blobExtension

/-- Among the blobs in the shards' directory, which lies at `l`, is one shard for each track of the
catalog and no other, and beside the directory lies the alias table. -/
structure FileTree.HoldsShards (t : FileTree) (dir : String) (l : Location) (c : Catalog) :
    Prop where
  directory : t.directory (tracksDir dir) = .ok l
  blobs : ((t.names l).filter isBlobName).Perm c.shardNames
  isFile : ∀ k ∈ c.tracks, t.IsFile (l ++ [shardName k.hash]) (Blob.encode .track k)
  shard : ∀ k ∈ c.tracks, t.readFile (shardPath dir k.hash) = .ok (Blob.encode .track k)
  aliases : t.readFile (aliasFile dir) = .ok (Blob.encode .aliases c.aliases)

theorem isPart_tracks : Path.IsPart "tracks" := ⟨by decide, by decide⟩

theorem isPart_alias : Path.IsPart "alias.bin" := ⟨by decide, by decide⟩

theorem mem_shardNames {h : Hash} :
    shardName h ∈ c.shardNames ↔ ∃ k ∈ c.tracks, k.hash = h := by
  rw [Catalog.shardNames, List.mem_map]
  exact ⟨fun ⟨k, hk, he⟩ => ⟨k, hk, shardName_injective he⟩, fun ⟨k, hk, he⟩ => ⟨k, hk, he ▸ rfl⟩⟩

theorem isBlobName_of_mem_shardNames (h : name ∈ c.shardNames) : isBlobName name := by
  obtain ⟨k, -, rfl⟩ := List.mem_map.1 h
  simp [isBlobName, extension?_shardName]

theorem nodup_shardNames (hn : (c.tracks.map Track.hash).Nodup) : c.shardNames.Nodup := by
  have h : c.shardNames = (c.tracks.map Track.hash).map shardName := by
    simp [Catalog.shardNames, Function.comp_def]
  rw [h]
  exact List.Pairwise.map shardName (fun a b hab e => hab (shardName_injective e)) hn

theorem isStale_iff {shards : List String} :
    isStale shards name ↔ isBlobName name ∧ name ∉ shards := by
  simp [isStale, isBlobName]

theorem yields_createOutputDir {path : String} :
    (createOutputDir path).Yields t () t' ↔ t.createDirs path = (t', .ok ()) := by
  rw [createOutputDir, Task.Yields, Task.run_attempt]
  dsimp only
  rw [Except.mapError_eq_ok_iff, Prod.ext_iff, and_comm]

/-- The steps of writing: directories, shards, clearing what the listing shows, the alias table. -/
theorem yields_writeSharded :
    (writeSharded order c dir).Yields t s t' ↔
      ∃ t₁ t₂ t₃ l n, (createOutputDir (tracksDir dir)).Yields t () t₁ ∧
        (writeShards dir c.tracks).Yields t₁ () t₂ ∧ t₂.directory (tracksDir dir) = .ok l ∧
        (removeStale dir c.shardNames (order.reorder (t₂.names l))).Yields t₂ n t₃ ∧
        t₃.replaceFile (aliasFile dir) (Blob.encode .aliases c.aliases) = .ok t' ∧
        s = c.summary := by
  simp only [writeSharded, Task.yields_bind, Task.yields_look, Task.yields_note, Task.yields_pure]
  constructor
  · rintro ⟨_, t₁, hdir, _, t₂, hwrite, listed, _, ⟨hlist, rfl⟩, n, t₃, hclear, _, _, rfl, _, _,
      halias, _, _, rfl, rfl, rfl⟩
    -- the listing succeeded, so the shards' directory is there
    rw [listDir, Traced.result_ofExcept] at hlist
    split at hlist
    · next l hl =>
      cases hlist
      exact ⟨t₁, t₂, t₃, l, n, hdir, hwrite, hl, hclear, yields_writeBlob.1 halias, rfl⟩
    · cases hlist
  · rintro ⟨t₁, t₂, t₃, l, n, hdir, hwrite, hl, hclear, halias, rfl⟩
    have hlist : (listDir order (tracksDir dir) t₂).result = .ok (order.reorder (t₂.names l)) := by
      rw [listDir, hl, Traced.result_ofExcept]
    exact ⟨(), t₁, hdir, (), t₂, hwrite, _, t₂, ⟨hlist, rfl⟩, n, t₃, hclear, (), t₃, rfl, (), t',
      yields_writeBlob.2 halias, (), t', rfl, rfl, rfl⟩

/-- The trees between the steps of writing, with the shards' directory at `l`. -/
structure Stages (t t₁ t₂ t₃ t' : FileTree) (dir : String) (l : Location) (c : Catalog) : Prop where
  created : (createOutputDir (tracksDir dir)).Yields t () t₁
  write : (writeShards dir c.tracks).Yields t₁ () t₂
  directory : t₂.directory (tracksDir dir) = .ok l
  keepsDirs : KeepsDirs t₂ t₃
  cleared : ∀ m, t₃.shape? m = t₂.shape? m ∨ ∃ name, isStale c.shardNames name ∧ m = l ++ [name]
  gone : ∀ name, isStale c.shardNames name → t₃.shape? (l ++ [name]) = none
  aliasTable : t₃.replaceFile (aliasFile dir) (Blob.encode .aliases c.aliases) = .ok t'

theorem stages_of_writeSharded (h : (writeSharded order c dir).Yields t s t') :
    s = c.summary ∧ ∃ t₁ t₂ t₃ l, Stages t t₁ t₂ t₃ t' dir l c := by
  obtain ⟨t₁, t₂, t₃, l, n, hcreated, hwrite, hdir, hclear, halias, hs⟩ := yields_writeSharded.1 h
  have hc := cleared_of_tree hclear.2
  have hb := hc.keepsDirs.base (FileTree.base_join_of_directory isPart_tracks hdir)
  have hlisted : ∀ name, name ∈ order.reorder (t₂.names l) ↔ t₂.shape? (l ++ [name]) ≠ none := by
    intro name
    rw [(order.perm _).mem_iff]
    exact FileTree.mem_names_iff (FileTree.directory_eq_ok.1 hdir).2
  have hname : ∀ name ∈ order.reorder (t₂.names l), IsName name :=
    fun name hm => FileTree.isName_of_shape? ((hlisted name).1 hm)
  refine ⟨hs, t₁, t₂, t₃, l, hcreated, hwrite, hdir, hc.keepsDirs, fun m => ?_, fun name hst => ?_,
    halias⟩
  · rcases hc.shape_of_base hname hb m with hm | ⟨-, name, -, hst, he⟩
    · exact .inl hm
    · exact .inr ⟨name, hst, he⟩
  · by_cases hm : name ∈ order.reorder (t₂.names l)
    · obtain ⟨m, hf, hnone⟩ := gone_of_removeStale hclear hm hst
      rw [← FileTree.find_join_of_base (.of_isName (hname name hm)) (hname name hm).1 hb hf]
      exact hnone
    · -- what the listing does not show was not there, and clearing adds nothing
      have hfree : t₂.shape? (l ++ [name]) = none := by simpa [hlisted] using hm
      rcases hc.shape (l ++ [name]) with hsame | ⟨hnone, -⟩
      · rw [hsame, hfree]
      · exact hnone

/-- The shards' directory lies in the output directory. -/
theorem base_tracksDir (h : t.base (tracksDir dir) = .ok l) :
    ∃ d, t.base dir = .ok d ∧ l = d ++ ["tracks"] := by
  obtain ⟨d, hd, hstep⟩ := (FileTree.base_join_eq_ok isPart_tracks).1 h
  obtain ⟨-, ⟨h0, -⟩ | ⟨h0, -⟩ | ⟨-, -, rfl⟩⟩ := FileTree.step_eq_ok.1 hstep
  · simp at h0
  · simp at h0
  · exact ⟨d, hd, rfl⟩

/-- So does the alias table. -/
theorem find_aliasFile (h : t.find (aliasFile dir) = .ok m) :
    ∃ d, t.base dir = .ok d ∧ m = d ++ ["alias.bin"] := by
  obtain ⟨d, hd, -, rfl⟩ := FileTree.find_join_name isPart_alias (by decide) h
  exact ⟨d, hd, rfl⟩

/-- The alias table lies beside the shards' directory, not in it. -/
theorem aliasFile_ne (h : t.find (aliasFile dir) = .ok m) (hl : t.base (tracksDir dir) = .ok l)
    (below : Location) : m ≠ l ++ below := by
  obtain ⟨d, hd, rfl⟩ := find_aliasFile h
  obtain ⟨d', hd', rfl⟩ := base_tracksDir hl
  rw [hd] at hd'
  cases hd'
  intro he
  rw [List.append_assoc] at he
  have := List.append_cancel_left he
  simp at this

theorem shape?_of_replaceFile_aliasFile {bytes : Bytes}
    (h : t.replaceFile (aliasFile dir) bytes = .ok t') (hl : t.base (tracksDir dir) = .ok l) :
    KeepsDirs t t' ∧ ∀ m, t'.shape? (l ++ m) = t.shape? (l ++ m) := by
  obtain ⟨a, ha, hnd, hc⟩ := FileTree.changedAt_of_replaceFile h
  exact ⟨hc.keepsDirs hnd, fun m => hc.shape_of_ne (aliasFile_ne ha hl m).symm⟩

/-- A path that only goes down passes nothing below its end. -/
theorem up_of_passes_below (hp : t.Passes (tracksDir dir) (l ++ name :: below))
    (hl : t.directory (tracksDir dir) = .ok l) : ".." ∈ Path.parts dir := by
  apply Decidable.byContradiction
  intro hup
  have hparts : ".." ∉ Path.parts (tracksDir dir) := by
    rw [tracksDir, Path.parts_join isPart_tracks, List.mem_append]
    rintro (hm | hm)
    · exact hup (Path.leading_subset hm)
    · simp at hm
  have hlen := (hp.prefix_of_find hparts (FileTree.directory_eq_ok.1 hl).1).length_le
  rw [List.length_append, List.length_cons] at hlen
  omega

namespace Stages

variable {t₁ t₂ t₃ : FileTree} (h : Stages t t₁ t₂ t₃ t' dir l c)

include h

theorem grown : FileTree.Grown t t₁ (tracksDir dir) := by
  have hg := FileTree.grown_createDirs t (tracksDir dir)
  rwa [yields_createOutputDir.1 h.created] at hg

theorem base : t₃.base (tracksDir dir) = .ok l :=
  h.keepsDirs.base (FileTree.base_join_of_directory isPart_tracks h.directory)

theorem wrote : Wrote t₁ t₂ dir c.tracks := wrote_of_tree h.write.2

theorem keepsDirs_last : KeepsDirs t₃ t' := (shape?_of_replaceFile_aliasFile h.aliasTable h.base).1

theorem shape_last (m : Location) : t'.shape? (l ++ m) = t₃.shape? (l ++ m) :=
  (shape?_of_replaceFile_aliasFile h.aliasTable h.base).2 m

theorem directory_last : t'.directory (tracksDir dir) = .ok l :=
  (h.keepsDirs.trans h.keepsDirs_last).directory h.directory

/-- Every track stands at its path in the end: what is taken away is no shard of the catalog. -/
theorem shard_last (hn : (c.tracks.map Track.hash).Nodup) {k : Track} (hk : k ∈ c.tracks) :
    t'.find (shardPath dir k.hash) = .ok (l ++ [shardName k.hash]) ∧
      t'.IsFile (l ++ [shardName k.hash]) (Blob.encode .track k) := by
  obtain ⟨m, hf, hfile⟩ := FileTree.readFile_eq_ok.1 (readFile_of_writeShards hn h.write hk)
  have hb := FileTree.base_join_of_directory isPart_tracks h.directory
  obtain rfl := FileTree.find_join_of_base (isPart_shardName _) (shardName_ne_special _) hb hf
  refine ⟨(h.keepsDirs.trans h.keepsDirs_last).find hf, ?_⟩
  rw [FileTree.IsFile, h.shape_last]
  rcases h.cleared (l ++ [shardName k.hash]) with hs | ⟨name, hst, he⟩
  · rw [hs]
    exact hfile
  · obtain rfl : shardName k.hash = name := by simpa using he
    exact absurd (mem_shardNames.2 ⟨k, hk, rfl⟩) (isStale_iff.1 hst).2

/-- A blob beside the shards would have been stale. -/
theorem mem_shardNames_of_shape? (hb : isBlobName name) (hs : t'.shape? (l ++ [name]) ≠ none) :
    name ∈ c.shardNames := by
  apply Decidable.byContradiction
  intro hnot
  rw [h.shape_last] at hs
  exact hs (h.gone name (isStale_iff.2 ⟨hb, hnot⟩))

/-- Whatever is no blob stays as it was when the directories had been created. -/
theorem shape_other (hb : isBlobName name = false) :
    t'.shape? (l ++ name :: below) = t₁.shape? (l ++ name :: below) := by
  have hbase := FileTree.base_join_of_directory isPart_tracks h.directory
  -- both loops touch nothing but entries that are named like blobs
  have hne : ∀ name', isBlobName name' → l ++ name :: below ≠ l ++ [name'] := by
    intro name' hb' he
    have := List.append_cancel_left he
    simp_all
  rw [h.shape_last]
  rcases h.cleared (l ++ name :: below) with hs | ⟨name', hst, he⟩
  · rw [hs]
    rcases h.wrote.shape_of_base hbase (l ++ name :: below) with hs | ⟨k, hk, he⟩
    · exact hs
    · exact absurd he (hne _ (isBlobName_of_mem_shardNames (mem_shardNames.2 ⟨k, hk, rfl⟩)))
  · exact absurd he (hne _ (isStale_iff.1 hst).1)

/-- **In the end the output holds just the catalog.** -/
theorem holdsShards (hn : (c.tracks.map Track.hash).Nodup) : t'.HoldsShards dir l c := by
  have hdir := h.directory_last
  have hnodup : ((t'.names l).filter isBlobName).Nodup := (FileTree.nodup_names t' l).filter _
  refine ⟨hdir, ?_, fun k hk => (h.shard_last hn hk).2, fun k hk => ?_,
    FileTree.readFile_of_replaceFile h.aliasTable⟩
  · rw [List.perm_ext_iff_of_nodup hnodup (nodup_shardNames hn)]
    intro name
    rw [List.mem_filter, FileTree.mem_names_iff (FileTree.directory_eq_ok.1 hdir).2]
    refine ⟨fun ⟨hs, hb⟩ => h.mem_shardNames_of_shape? hb hs, fun hm => ?_⟩
    refine ⟨?_, isBlobName_of_mem_shardNames hm⟩
    obtain ⟨k, hk, rfl⟩ := List.mem_map.1 hm
    rw [(h.shard_last hn hk).2]
    simp
  · obtain ⟨hf, hfile⟩ := h.shard_last hn hk
    exact FileTree.readFile_eq_ok.2 ⟨_, hf, hfile⟩

/-- **What is no blob is as before**, unless it is a directory that the output's own path passes. -/
theorem shape_kept (hb : isBlobName name = false) :
    t'.shape? (l ++ name :: below) = t.shape? (l ++ name :: below) ∨
      ".." ∈ Path.parts dir ∧ t.shape? (l ++ name :: below) = none ∧
        t'.IsDir (l ++ name :: below) ∧ t'.Passes (tracksDir dir) (l ++ name :: below) := by
  rw [h.shape_other hb]
  rcases h.grown.shape (l ++ name :: below) with hs | ⟨hnone, hd, hp⟩
  · exact .inl hs
  · have hk := h.wrote.keepsDirs.trans (h.keepsDirs.trans h.keepsDirs_last)
    have hp' := hp.mono hk
    exact .inr ⟨up_of_passes_below hp' h.directory_last, hnone, hk.isDir _ hd, hp'⟩

end Stages

/-- **Whatever stood there before, a sharded output holds just the catalog**, and what is no blob
among its shards is as before, up to directories that the output's own path passes on its way
through them. -/
theorem writeSharded_leaves_just_catalog (hn : (c.tracks.map Track.hash).Nodup)
    (h : (writeSharded order c dir).Yields t s t') :
    ∃ l, t'.HoldsShards dir l c ∧ ((t'.names l).filter isBlobName).length = s.tracks ∧
      c.aliases.length = s.aliases ∧
      ∀ name below, isBlobName name = false →
        t'.shape? (l ++ name :: below) = t.shape? (l ++ name :: below) ∨
          ".." ∈ Path.parts dir ∧ t.shape? (l ++ name :: below) = none ∧
            t'.IsDir (l ++ name :: below) ∧ t'.Passes (tracksDir dir) (l ++ name :: below) := by
  obtain ⟨rfl, t₁, t₂, t₃, l, hst⟩ := stages_of_writeSharded h
  have hold := hst.holdsShards hn
  refine ⟨l, hold, ?_, rfl, fun name below hb => hst.shape_kept hb⟩
  rw [hold.blobs.length_eq, Catalog.shardNames, List.length_map]
  rfl

namespace Leftover

/-- The hash of twenty equal bytes. -/
def hash (b : UInt8) : Hash := ⟨List.replicate 20 b, by simp⟩

/-- An output with the shard of a track that is gone, a text among the shards, and a directory that
is named in upper case like a blob. -/
def before : FileTree :=
  FileTree.empty.putDir ["out"] |>.putDir ["out", "tracks"]
    |>.putFile ["out", "tracks", shardName (hash 1)] [1] |>.putFile ["out", "tracks", "notes"] [2]
    |>.putDir ["out", "tracks", "A.BIN"]

/-- A catalog of one track. -/
def catalog : Catalog := ⟨[⟨hash 2, some 3, "A", 1, 0, none, none⟩], [⟨hash 1, hash 2⟩]⟩

/-- The old shard goes and the new one stands alone. -/
theorem catalog_replaces_leftover :
    (catalog.tracks.map Track.hash).Nodup ∧
      ∃ t, (writeSharded .stored catalog "out").Yields before ⟨1, 1⟩ t ∧
        ∃ l, t.HoldsShards "out" l catalog ∧ ((t.names l).filter isBlobName).length = 1 :=
  have hn : (catalog.tracks.map Track.hash).Nodup := by decide
  have hy := Task.yields_of_result_eq_ok (x := writeSharded .stored catalog "out") (t := before)
    (a := ⟨1, 1⟩) (by decide +kernel)
  have ⟨l, hold, hlength, _⟩ := writeSharded_leaves_just_catalog hn hy
  ⟨hn, _, hy, l, hold, hlength⟩

end Leftover

namespace Upward

/-- An output directory with no shards yet. -/
def before : FileTree := FileTree.empty.putDir ["tracks"]

/-- Writes an empty catalog to it by a path through the shards' directory. -/
def write : Task CatalogError EmitSummary := writeSharded .stored ⟨[], []⟩ "tracks/x/../.."

/-- A path that passes a directory among the shards creates it there. -/
theorem path_adds_directory_among_shards :
    ¬ ∀ (order : ListingOrder) (c : Catalog) (dir : String) (t t' : FileTree) (s : EmitSummary),
      (c.tracks.map Track.hash).Nodup → (writeSharded order c dir).Yields t s t' →
      ∃ l, t'.HoldsShards dir l c ∧ ((t'.names l).filter isBlobName).length = s.tracks ∧
        c.aliases.length = s.aliases ∧
        ∀ name below, isBlobName name = false →
          t'.shape? (l ++ name :: below) = t.shape? (l ++ name :: below) := by
  intro claim
  have hy := Task.yields_of_result_eq_ok (x := write) (t := before) (a := ⟨0, 0⟩)
    (by decide +kernel)
  obtain ⟨l, hold, -, -, hkept⟩ := claim _ _ _ _ _ _ (by simp) hy
  have hdir : (write.run before).tree.directory (tracksDir "tracks/x/../..") = .ok ["tracks"] := by
    decide +kernel
  have hl : l = ["tracks"] := by
    have := hold.directory
    rw [hdir] at this
    cases this
    rfl
  subst hl
  have hx := hkept "x" [] (by decide)
  have hafter : (write.run before).tree.shape? ["tracks", "x"] = some .dir := by decide +kernel
  have hbefore : before.shape? ["tracks", "x"] = none := by decide +kernel
  rw [List.singleton_append, hafter, hbefore] at hx
  simp at hx

end Upward
end TrackCatalog
