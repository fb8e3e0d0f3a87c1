import TrackCatalog.Proofs.Emit.Frame
import TrackCatalog.Proofs.Files.Replacement

/-!
# A sharded output that could not be finished

Writing may stop while the directories are created, between any two shards, between any two stale
files, or at the alias table, which comes last. Nothing is taken away before all shards are in
place, so wherever it stops there is a whole shard for each track or the old one.

* `Halted`, `halted_of_fails`: where a run can stop.
* `InPlace`: what is so before anything is taken away.
* `Aftermath`, `Halted.aftermath`: what may have become of a location then.
* `failed_write_loses_nothing`: what this means for the alias table, for the shards of the catalog,
  for other blobs and for everything else.
* `alias_table_became_directory`: why the directories on the way have to be left out of account.
-/

namespace TrackCatalog

open FileTree (KeepsDirs Grown)

variable {t t' : FileTree} {dir name : String} {l m below : Location} {c : Catalog}
  {order : ListingOrder} {e : CatalogError}

/-- For every track of the catalog a whole shard with its hash is there. -/
def InPlace (t : FileTree) (dir : String) (c : Catalog) : Prop :=
  ∀ k ∈ c.tracks, ∃ k' ∈ c.tracks, k'.hash = k.hash ∧
    t.readFile (shardPath dir k.hash) = .ok (Blob.encode .track k')

/-! ## Where a run can stop -/

/-- The run stopped before all shards were written, or when stale files were being taken away or all
were gone. -/
inductive Halted (t t' : FileTree) (dir : String) (c : Catalog) : Prop
  | writing (t₁ : FileTree) (grown : Grown t t₁ (tracksDir dir))
      (wrote : Wrote t₁ t' dir c.tracks)
  | clearing (t₁ t₂ : FileTree) (l : Location) (names : List String)
      (grown : Grown t t₁ (tracksDir dir)) (write : (writeShards dir c.tracks).Yields t₁ () t₂)
      (directory : t₂.directory (tracksDir dir) = .ok l) (named : ∀ name ∈ names, IsName name)
      (cleared : Cleared t₂ t' dir c.shardNames names)

/-- After the listing only the clearing and the alias table can fail, and the alias table leaves the
tree when it does. -/
theorem cleared_of_fails {names : List String}
    (h : Task.Fails (do
      let stale ← removeStale dir c.shardNames names
      Task.note (.wroteShards dir c.tracks.length stale)
      writeBlob .aliases (aliasFile dir) c.aliases
      Task.note (.wroteShardedCatalog dir c.summary.text)
      return c.summary) t e t') : Cleared t t' dir c.shardNames names := by
  rcases Task.fails_bind.1 h with hclear | ⟨stale, u, hclear, h⟩
  · exact cleared_of_tree hclear.2
  rcases Task.fails_bind.1 h with hnote | ⟨_, u', hnote, h⟩
  · exact absurd hnote Task.not_fails_note
  obtain rfl := Task.yields_note.1 hnote
  rcases Task.fails_bind.1 h with halias | ⟨_, u', -, h⟩
  · obtain rfl : u = t' := (tree_writeBlob halias.1).symm.trans halias.2
    exact cleared_of_tree hclear.2
  rcases Task.fails_bind.1 h with hnote | ⟨_, u', -, h⟩
  · exact absurd hnote Task.not_fails_note
  · exact absurd h Task.not_fails_pure

/-- **A failed run stopped at one of its steps.** -/
theorem halted_of_fails (h : (writeSharded order c dir).Fails t e t') : Halted t t' dir c := by
  unfold writeSharded at h
  have hgrown := FileTree.grown_createDirs t (tracksDir dir)
  rcases Task.fails_bind.1 h with hdirs | ⟨_, t₁, hdirs, h⟩
  · obtain rfl : (t.createDirs (tracksDir dir)).1 = t' := hdirs.2
    exact .writing _ hgrown (.refl _ dir _)
  obtain rfl : (t.createDirs (tracksDir dir)).1 = t₁ := hdirs.2
  rcases Task.fails_bind.1 h with hwrite | ⟨_, t₂, hwrite, h⟩
  · exact .writing _ hgrown (wrote_of_tree hwrite.2)
  rcases Task.fails_bind.1 h with hlook | ⟨names, t₃, hlook, h⟩
  · obtain ⟨-, rfl⟩ := Task.fails_look.1 hlook
    exact .writing _ hgrown (wrote_of_tree hwrite.2)
  -- the listing succeeded, so the shards' directory is there
  obtain ⟨hlist, rfl⟩ := Task.yields_look.1 hlook
  obtain ⟨l, hl⟩ : ∃ l, t₂.directory (tracksDir dir) = .ok l := by
    rw [listDir, Traced.result_ofExcept] at hlist
    split at hlist
    · next l hl => exact ⟨l, hl⟩
    · cases hlist
  exact .clearing _ t₂ l names hgrown hwrite hl (isName_of_listDir hlist) (cleared_of_fails h)

/-! ## What may have become of a location -/

/-- A directory came to stand there, on the way of the path to the shards. -/
def CreatedOnWay (t t' : FileTree) (dir : String) (m : Location) : Prop :=
  t.shape? m = none ∧ t'.IsDir m ∧ t'.Passes (tracksDir dir) m

/-- A stale file stood there among the shards and is gone, and all shards are in place. -/
structure Removed (t t' : FileTree) (dir : String) (c : Catalog) (m : Location) : Prop where
  place : ∃ l name, t'.directory (tracksDir dir) = .ok l ∧ isStale c.shardNames name ∧
    m = l ++ [name]
  wasFile : ∃ bytes, t.IsFile m bytes
  gone : t'.shape? m = none
  inPlace : InPlace t' dir c

/-- What may have become of a location. -/
inductive Aftermath (t t' : FileTree) (dir : String) (c : Catalog) (m : Location) : Prop
  | same (same : t'.shape? m = t.shape? m)
  | created (created : CreatedOnWay t t' dir m)
  | written (k : Track) (mem : k ∈ c.tracks) (place : t'.find (shardPath dir k.hash) = .ok m)
      (notDir : ¬ t.IsDir m) (isFile : t'.IsFile m (Blob.encode .track k))
  | removed (removed : Removed t t' dir c m)

/-- Directories are created before the shards are written. -/
theorem aftermath_of_wrote {t₁ : FileTree} (hg : Grown t t₁ (tracksDir dir))
    (hw : Wrote t₁ t' dir c.tracks) (m : Location) :
    t'.shape? m = t.shape? m ∨ CreatedOnWay t t' dir m ∨
      ∃ k ∈ c.tracks, t'.find (shardPath dir k.hash) = .ok m ∧ ¬ t.IsDir m ∧
        t'.IsFile m (Blob.encode .track k) := by
  rcases hw.shape m with hs | ⟨k, hk, hf, hfile⟩
  · rw [hs]
    rcases hg.shape m with hs' | ⟨hnone, hd, hp⟩
    · exact .inl hs'
    · exact .inr (.inl ⟨hnone, hw.keepsDirs.isDir m hd, hp.mono hw.keepsDirs⟩)
  · refine .inr (.inr ⟨k, hk, hf, fun hd => ?_, hfile⟩)
    exact hfile.not_isDir (hw.keepsDirs.isDir m (hg.keepsDirs.isDir m hd))

/-- Clearing leaves the shards of the catalog in place. -/
theorem inPlace_of_cleared {t₁ t₂ : FileTree} {names : List String}
    (hwrite : (writeShards dir c.tracks).Yields t₁ () t₂)
    (hl : t₂.directory (tracksDir dir) = .ok l) (hnamed : ∀ name ∈ names, IsName name)
    (hc : Cleared t₂ t' dir c.shardNames names) : InPlace t' dir c := by
  intro k hk
  obtain ⟨k', hk', he, hr⟩ := exists_readFile_of_writeShards hwrite hk
  obtain ⟨m, hf, hfile⟩ := FileTree.readFile_eq_ok.1 hr
  have hb := FileTree.base_join_of_directory isPart_tracks hl
  obtain rfl := FileTree.find_join_of_base (isPart_shardName _) (shardName_ne_special _) hb hf
  refine ⟨k', hk', he, FileTree.readFile_eq_ok.2 ⟨_, hc.keepsDirs.find hf, ?_⟩⟩
  rcases hc.shape_of_base hnamed (hc.keepsDirs.base hb) (l ++ [shardName k.hash])
    with hs | ⟨-, name, -, hst, hname⟩
  · rw [FileTree.IsFile, hs]
    exact hfile
  · obtain rfl : shardName k.hash = name := by simpa using hname
    exact absurd (mem_shardNames.2 ⟨k, hk, rfl⟩) (isStale_iff.1 hst).2

/-- What is cleared away had been a file from the beginning: the run itself puts nothing there that
is stale. -/
theorem isFile_of_stale {t₁ t₂ : FileTree} (hg : Grown t t₁ (tracksDir dir))
    (hw : Wrote t₁ t₂ dir c.tracks) (hl : t₂.base (tracksDir dir) = .ok l)
    (hst : isStale c.shardNames name) {bytes : Bytes} (hf : t₂.IsFile (l ++ [name]) bytes) :
    t.IsFile (l ++ [name]) bytes := by
  rcases hw.shape_of_base hl (l ++ [name]) with hs | ⟨k, hk, he⟩
  · rw [FileTree.IsFile, hs] at hf
    rcases hg.shape (l ++ [name]) with hs' | ⟨-, hd, -⟩
    · rwa [FileTree.IsFile, ← hs']
    · exact absurd hd (FileTree.IsFile.not_isDir hf)
  · obtain rfl : name = shardName k.hash := by simpa using he
    exact absurd (mem_shardNames.2 ⟨k, hk, rfl⟩) (isStale_iff.1 hst).2

theorem Halted.keepsDirs (h : Halted t t' dir c) : KeepsDirs t t' := by
  cases h with
  | writing t₁ grown wrote => exact grown.keepsDirs.trans wrote.keepsDirs
  | clearing t₁ t₂ l names grown write directory named cleared =>
    exact grown.keepsDirs.trans ((wrote_of_tree write.2).keepsDirs.trans cleared.keepsDirs)

/-- **What may have become of a location** when a run stopped. -/
theorem Halted.aftermath (h : Halted t t' dir c) (m : Location) : Aftermath t t' dir c m := by
  cases h with
  | writing t₁ grown wrote =>
    rcases aftermath_of_wrote grown wrote m with hs | hcreated | ⟨k, hk, hf, hd, hfile⟩
    · exact .same hs
    · exact .created hcreated
    · exact .written k hk hf hd hfile
  | clearing t₁ t₂ l names grown write directory named cleared =>
    have hw := wrote_of_tree write.2
    have hk := cleared.keepsDirs
    have hb := FileTree.base_join_of_directory isPart_tracks directory
    rcases cleared.shape_or_removed named (hk.base hb) m
      with hs | ⟨hnone, ⟨bytes, hfile⟩, name, -, hst, rfl⟩
    · rcases aftermath_of_wrote grown hw m with hs' | ⟨hfree, hd, hp⟩ | ⟨k, hk', hf, hd, hfile⟩
      · exact .same (hs.trans hs')
      · exact .created ⟨hfree, hk.isDir m hd, hp.mono hk⟩
      · refine .written k hk' (hk.find hf) hd ?_
        rw [FileTree.IsFile, hs]
        exact hfile
    · exact .removed {
        place := ⟨l, name, hk.directory directory, hst, rfl⟩
        wasFile := ⟨bytes, isFile_of_stale grown hw hb hst hfile⟩
        gone := hnone
        inPlace := inPlace_of_cleared write directory named cleared }

/-! ## What is not lost -/

/-- A path that only goes down to the shards does not pass the alias table. -/
theorem up_of_passes_aliasFile (hp : t.Passes (tracksDir dir) m)
    (hm : t.find (aliasFile dir) = .ok m) : ".." ∈ Path.parts dir := by
  apply Decidable.byContradiction
  intro hup
  obtain ⟨d, hd, rfl⟩ := find_aliasFile hm
  obtain ⟨ps, hps, hl⟩ := hp
  rw [tracksDir, Path.parts_join isPart_tracks, List.prefix_concat_iff] at hps
  rcases hps with rfl | ⟨qs, hqs⟩
  · -- all of the path leads to the shards' directory
    have hb : t.base (tracksDir dir) = .ok (d ++ ["alias.bin"]) := by
      rw [FileTree.base, tracksDir, Path.leading_join isPart_tracks]
      exact hl
    obtain ⟨d', hd', he⟩ := base_tracksDir hb
    rw [hd] at hd'
    cases hd'
    have := List.append_cancel_left he
    simp at this
  · -- a part of it leads to a directory above the output
    rw [FileTree.base, ← hqs] at hd
    rw [tracksDir, Path.isAbsolute_join isPart_tracks] at hl
    obtain ⟨d', hd', hrest⟩ := FileTree.locate_append_eq_ok.1 hd
    rw [hl] at hd'
    cases hd'
    have hdown : ".." ∉ qs := fun hq =>
      hup (Path.leading_subset (hqs ▸ List.mem_append_right _ hq))
    have hlen := (FileTree.prefix_of_locate hdown hrest).length_le
    rw [List.length_append, List.length_singleton] at hlen
    omega

/-- As before, or a directory that the output's own path passes, which it does only by steps up. -/
def SameOrPassed (t t' : FileTree) (dir : String) (m : Location) : Prop :=
  t'.shape? m = t.shape? m ∨ ".." ∈ Path.parts dir ∧ CreatedOnWay t t' dir m

/-- What is there when a run failed. -/
structure LosesNothing (t t' : FileTree) (dir : String) (c : Catalog) : Prop where
  keepsDirs : KeepsDirs t t'
  everywhere : ∀ m, Aftermath t t' dir c m
  aliasTable : ∀ m, t'.find (aliasFile dir) = .ok m → SameOrPassed t t' dir m
  others : ∀ l, t'.directory (tracksDir dir) = .ok l → ∀ name below, isBlobName name = false →
    SameOrPassed t t' dir (l ++ name :: below)
  owned : ∀ l, t'.directory (tracksDir dir) = .ok l → ∀ k ∈ c.tracks,
    SameOrPassed t t' dir (l ++ [shardName k.hash]) ∨
      ∃ k' ∈ c.tracks, k'.hash = k.hash ∧
        t'.IsFile (l ++ [shardName k.hash]) (Blob.encode .track k')
  unowned : ∀ l, t'.directory (tracksDir dir) = .ok l → ∀ name, isBlobName name →
    name ∉ c.shardNames →
      SameOrPassed t t' dir (l ++ [name]) ∨ Removed t t' dir c (l ++ [name])

/-- Where a shard was written is the place of its name. -/
theorem eq_of_find_shardPath {k : Track} (hl : t.directory (tracksDir dir) = .ok l)
    (hf : t.find (shardPath dir k.hash) = .ok (l ++ name :: below)) :
    name = shardName k.hash ∧ below = [] := by
  have hb := FileTree.base_join_of_directory isPart_tracks hl
  have he := FileTree.find_join_of_base (isPart_shardName _) (shardName_ne_special _) hb hf
  simpa using List.append_cancel_left he

theorem Removed.isStale (h : Removed t t' dir c (l ++ name :: below))
    (hl : t'.directory (tracksDir dir) = .ok l) : isStale c.shardNames name := by
  obtain ⟨l', name', hl', hst, he⟩ := h.place
  rw [hl] at hl'
  cases hl'
  obtain ⟨rfl, -⟩ : name = name' ∧ below = [] := by simpa using List.append_cancel_left he
  exact hst

/-- Among the shards: as before, the whole shard of its name, or stale and gone. -/
theorem Aftermath.of_directory (h : Aftermath t t' dir c (l ++ name :: below))
    (hl : t'.directory (tracksDir dir) = .ok l) :
    SameOrPassed t t' dir (l ++ name :: below) ∨
      (∃ k ∈ c.tracks, name = shardName k.hash ∧
        t'.IsFile (l ++ name :: below) (Blob.encode .track k)) ∨
      TrackCatalog.isStale c.shardNames name ∧ Removed t t' dir c (l ++ name :: below) := by
  cases h with
  | same hs => exact .inl (.inl hs)
  | created hc => exact .inl (.inr ⟨up_of_passes_below hc.2.2 hl, hc⟩)
  | written k hk hf _ hfile => exact .inr (.inl ⟨k, hk, (eq_of_find_shardPath hl hf).1, hfile⟩)
  | removed hr => exact .inr (.inr ⟨hr.isStale hl, hr⟩)

theorem Halted.losesNothing (h : Halted t t' dir c) : LosesNothing t t' dir c where
  keepsDirs := h.keepsDirs
  everywhere := h.aftermath
  aliasTable m hm := by
    cases h.aftermath m with
    | same hs => exact .inl hs
    | created hc => exact .inr ⟨up_of_passes_aliasFile hc.2.2 hm, hc⟩
    | written k hk hf _ _ =>
      obtain ⟨l, hl, rfl⟩ := find_shardPath hf
      exact absurd rfl (aliasFile_ne hm hl _)
    | removed hr =>
      obtain ⟨l, name, hl, -, rfl⟩ := hr.place
      exact absurd rfl (aliasFile_ne hm (FileTree.base_join_of_directory isPart_tracks hl) _)
  others l hl name below hb := by
    rcases (h.aftermath (l ++ name :: below)).of_directory hl with hs | ⟨k, hk, rfl, -⟩ | ⟨hst, -⟩
    · exact hs
    · rw [isBlobName_of_mem_shardNames (mem_shardNames.2 ⟨k, hk, rfl⟩)] at hb
      cases hb
    · rw [(isStale_iff.1 hst).1] at hb
      cases hb
  owned l hl k hk := by
    rcases (h.aftermath _).of_directory hl with hs | ⟨k', hk', he, hfile⟩ | ⟨hst, -⟩
    · exact .inl hs
    · exact .inr ⟨k', hk', (shardName_injective he).symm, hfile⟩
    · exact absurd (mem_shardNames.2 ⟨k, hk, rfl⟩) (isStale_iff.1 hst).2
  unowned l hl name _ hname := by
    rcases (h.aftermath (l ++ [name])).of_directory hl with hs | ⟨k, hk, rfl, -⟩ | ⟨-, hr⟩
    · exact .inl hs
    · exact absurd (mem_shardNames.2 ⟨k, hk, rfl⟩) hname
    · exact .inr hr

/-- **A failed run loses nothing and tears nothing.** Up to directories that the output's own path
passes on its way, the alias table and what is no blob among the shards are as before; a shard of
the catalog is as before or whole; another blob is as before, or was a file and is gone after all
shards were in place. Nothing else has changed, and a file that is prepared beside its place is not
left behind. -/
theorem failed_write_loses_nothing (h : (writeSharded order c dir).Fails t e t') :
    LosesNothing t t' dir c ∧
      ∀ (u : FileTree) temp path bytes, u.IsFresh temp path →
        u.EndsAlike (u.replaceFile path bytes) (u.replaceInSteps temp path bytes) :=
  ⟨(halted_of_fails h).losesNothing, fun _ _ _ bytes hfresh =>
    FileTree.replaceInSteps_agrees hfresh bytes⟩

namespace Blocked

/-- An output with an old shard, where a directory stands in place of the alias table. -/
def before : FileTree := Leftover.before.putDir ["out", "alias.bin"]

/-- What is left when a catalog of one track is written to it. -/
def after : FileTree := ((writeSharded .stored Leftover.catalog "out").run before).tree

/-- The directory and the text among the shards stay, and the old shard goes only for a new one. -/
theorem blocked_table_is_left :
    (writeSharded .stored Leftover.catalog "out").Fails before
        (.file "out/alias.bin" .isADirectory) after ∧
      after.IsDir ["out", "alias.bin"] ∧ after.IsFile ["out", "tracks", "notes"] [2] ∧
      (after.IsFile ["out", "tracks", shardName (Leftover.hash 1)] [1] ∨
        InPlace after "out" Leftover.catalog) := by
  have hfails : (writeSharded .stored Leftover.catalog "out").Fails before
      (.file "out/alias.bin" .isADirectory) after := ⟨by decide +kernel, rfl⟩
  obtain ⟨hkept, -⟩ := failed_write_loses_nothing hfails
  -- the path to the output does not lead up anywhere, so it passes nothing in it
  have hsame : ∀ m, SameOrPassed before after "out" m → after.shape? m = before.shape? m :=
    fun m hm => hm.resolve_right fun hup => absurd hup.1 (by decide)
  have htable : before.find (aliasFile "out") = .ok ["out", "alias.bin"] := by decide
  have hdir : before.directory (tracksDir "out") = .ok ["out", "tracks"] := by decide
  have hdir' := hkept.keepsDirs.directory hdir
  have hold : shardName (Leftover.hash 1) ∉ Leftover.catalog.shardNames := by
    rw [mem_shardNames]
    decide
  refine ⟨hfails, ?_, ?_, ?_⟩
  · exact (hsame _ (hkept.aliasTable _ (hkept.keepsDirs.find htable))).trans (by decide)
  · exact (hsame _ (hkept.others _ hdir' "notes" [] (by decide))).trans (by decide)
  · rcases hkept.unowned _ hdir' _ (by simp [isBlobName, extension?_shardName]) hold with hs | hr
    · exact .inl ((hsame _ hs).trans (by decide))
    · exact .inr hr.inPlace

end Blocked

namespace ThroughTable

/-- Writes an empty catalog to an output whose path passes the place of its alias table. -/
def write : Task CatalogError EmitSummary := writeSharded .stored ⟨[], []⟩ "alias.bin/.."

/-- What is left of the empty tree then. -/
def after : FileTree := (write.run .empty).tree

/-- Where nothing stood, the path creates a directory, and then no alias table can be written. -/
theorem alias_table_became_directory :
    ¬ ∀ (order : ListingOrder) (c : Catalog) (dir : String) (t t' : FileTree) (e : CatalogError),
      (writeSharded order c dir).Fails t e t' →
        ∀ m, t'.find (aliasFile dir) = .ok m → t'.shape? m = t.shape? m := by
  intro claim
  have hrun : (write.run .empty).result =
        .error (.file "alias.bin/../alias.bin" .isADirectory) ∧
      after.find (aliasFile "alias.bin/..") = .ok ["alias.bin"] ∧
      after.shape? ["alias.bin"] = some .dir := by
    decide +kernel
  have hsame : after.shape? ["alias.bin"] = FileTree.empty.shape? ["alias.bin"] :=
    claim _ _ _ _ _ _ ⟨hrun.1, rfl⟩ _ hrun.2.1
  have hfree : FileTree.empty.shape? ["alias.bin"] = none := by decide
  rw [hrun.2.2, hfree] at hsame
  cases hsame

end ThroughTable

end TrackCatalog
