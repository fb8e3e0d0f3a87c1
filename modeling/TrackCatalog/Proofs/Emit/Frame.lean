import TrackCatalog.Proofs.Emit.Sharded
import TrackCatalog.Proofs.Files.Frame

/-!
# What the writers spare

Each writer changes files in a territory of its own, and spares the others also when it fails. A
single file that cannot be written leaves all files as they were, since it is put in place at once.

* `Territory.shards`: the alias table, and what is named like a blob beside the shards.
* `spares_writeCatalog`, `spares_of_writeCatalog_error`: the single-file layout.
* `spares_writeSharded`: the sharded layout.
-/

namespace TrackCatalog

open FileTree (KeepsDirs Spares)

variable {α : Type} {T : Territory} {t t' u : FileTree} {dir path name : String} {l m : Location}
  {c : Catalog} {order : ListingOrder} {e : CatalogError} {names : List String}

/-- In a sharded output: the alias table, and the entries of the shards' directory that are named
like blobs. -/
def Territory.shards (dir : String) : Territory where
  Holds t m :=
    t.find (aliasFile dir) = .ok m ∨
      ∃ l name, t.directory (tracksDir dir) = .ok l ∧ isBlobName name = true ∧ m = l ++ [name]
  mono hk := by
    rintro (hm | ⟨l, name, hl, hb, rfl⟩)
    · exact .inl (hk.find hm)
    · exact .inr ⟨l, name, hk.directory hl, hb, rfl⟩

/-! ## One file -/

theorem tree_createOutputDir (dir : String) (t : FileTree) :
    ((createOutputDir dir).run t).tree = (t.createDirs dir).1 := rfl

theorem spares_createOutputDir (dir : String) (t : FileTree) :
    Spares T t ((createOutputDir dir).run t).tree := by
  rw [tree_createOutputDir]
  exact (FileTree.grown_createDirs t dir).spares

/-- A blob that is written changes the file that its path leads to. -/
theorem spares_writeBlob (k : Codec α) (a : α) (path : String) (t : FileTree)
    (hT : ∀ m, t.find path = .ok m → T.Holds t m) :
    Spares T t ((writeBlob k path a).run t).tree := by
  cases hr : ((writeBlob k path a).run t).result with
  | error e =>
    rw [tree_writeBlob hr]
    exact .refl T t
  | ok _ =>
    obtain ⟨l, hl, hd, hc⟩ := FileTree.changedAt_of_replaceFile
      (yields_writeBlob.1 (Task.yields_of_result_eq_ok hr))
    exact FileTree.spares_of_changedAt hc hd (hT l hl)

/-- What is done for a single file once its directory is there. -/
def writeCatalogFile (c : Catalog) (path : String) : Task CatalogError EmitSummary := do
  writeBlob .catalog path c
  Task.note (.wroteCatalog path c.summary.text)
  return c.summary

/-- A single file is written at once, or behind the directories that lead to it. -/
theorem writeCatalog_eq (c : Catalog) (path : String) :
    writeCatalog c path = writeCatalogFile c path ∨
      ∃ parent, Path.parent? path = some parent ∧ parent ≠ "" ∧
        writeCatalog c path = createOutputDir parent >>= fun _ => writeCatalogFile c path := by
  unfold writeCatalog
  split
  · exact .inl rfl
  · next parent hparent =>
    split
    · exact .inl rfl
    · next hempty => exact .inr ⟨parent, hparent, by simpa using hempty, rfl⟩

theorem spares_writeCatalogFile (c : Catalog) (path : String) (t : FileTree) :
    Spares (.ofPath path) t ((writeCatalogFile c path).run t).tree := by
  unfold writeCatalogFile
  have hwrite : Spares (.ofPath path) t ((writeBlob .catalog path c).run t).tree :=
    spares_writeBlob .catalog c path t fun m hm => hm
  exact Task.rel_bind .trans hwrite fun _ u _ => .refl _ u

theorem tree_writeCatalogFile (h : ((writeCatalogFile c path).run t).result = .error e) :
    ((writeCatalogFile c path).run t).tree = t := by
  unfold writeCatalogFile at h ⊢
  rw [Task.run_bind] at h ⊢
  cases hr : ((writeBlob .catalog path c).run t).result with
  | error e' =>
    dsimp only
    exact tree_writeBlob hr
  | ok _ =>
    -- nothing can fail once the file is in place
    rw [hr] at h
    simp only [Task.run_bind, Task.run_note, Task.run_pure, reduceCtorEq] at h

/-- **The single-file layout changes one file**, whether it succeeds or not. -/
theorem spares_writeCatalog (c : Catalog) (path : String) (t : FileTree) :
    Spares (.ofPath path) t ((writeCatalog c path).run t).tree := by
  rcases writeCatalog_eq c path with he | ⟨parent, -, -, he⟩
  · rw [he]
    exact spares_writeCatalogFile c path t
  · rw [he]
    exact Task.rel_bind .trans (spares_createOutputDir parent t) fun _ u _ =>
      spares_writeCatalogFile c path u

/-- **A single file that cannot be written leaves every file.** -/
theorem spares_of_writeCatalog_error (h : ((writeCatalog c path).run t).result = .error e) :
    Spares .nowhere t ((writeCatalog c path).run t).tree := by
  rcases writeCatalog_eq c path with he | ⟨parent, -, -, he⟩
  · rw [he] at h ⊢
    rw [tree_writeCatalogFile h]
    exact .refl _ t
  · rw [he] at h ⊢
    have hdirs : Spares .nowhere t ((createOutputDir parent).run t).tree :=
      spares_createOutputDir parent t
    rw [Task.run_bind] at h ⊢
    cases hr : ((createOutputDir parent).run t).result with
    | error e' => exact hdirs
    | ok _ =>
      rw [hr] at h
      dsimp only at h ⊢
      rw [tree_writeCatalogFile h]
      exact hdirs

/-! ## Shards -/

theorem holds_shards_of_find (hn : Path.IsPart name) (hs : name ∉ ["", ".", ".."])
    (hb : isBlobName name = true) (h : t.find (Path.join (tracksDir dir) name) = .ok m) :
    (Territory.shards dir).Holds t m := by
  obtain ⟨l, hl, rfl⟩ := FileTree.directory_of_find_join isPart_tracks hn hs h
  exact .inr ⟨l, name, hl, hb, rfl⟩

theorem FileTree.spares_of_shape (hk : KeepsDirs t t')
    (hs : ∀ m, t'.shape? m = t.shape? m ∨ T.Holds t' m) : Spares T t t' := by
  refine ⟨hk, fun m hm bytes => ?_⟩
  have hsame := (hs m).resolve_right hm
  unfold IsFile
  rw [hsame]

theorem spares_writeShards (dir : String) (ks : List Track) (t : FileTree) :
    Spares (.shards dir) t ((writeShards dir ks).run t).tree := by
  have hw := wrote_writeShards dir ks t
  refine FileTree.spares_of_shape hw.keepsDirs fun m => ?_
  rcases hw.shape m with hs | ⟨k, -, hf, -⟩
  · exact .inl hs
  · have hb : isBlobName (shardName k.hash) = true := by
      rw [isBlobName, extension?_shardName, decide_eq_true_eq]
    exact .inr (holds_shards_of_find (isPart_shardName _) (shardName_ne_special _) hb hf)

theorem spares_removeStale (dir : String) (shards : List String) (hn : ∀ name ∈ names, IsName name)
    (t : FileTree) : Spares (.shards dir) t ((removeStale dir shards names).run t).tree := by
  have hc := cleared_removeStale dir shards names t
  refine FileTree.spares_of_shape hc.keepsDirs fun m => ?_
  rcases hc.shape m with hs | ⟨-, name, hm, hst, hf⟩
  · exact .inl hs
  · have hname := hn name hm
    exact .inr (holds_shards_of_find (.of_isName hname) hname.1 (isStale_iff.1 hst).1 hf)

theorem isName_of_listDir (h : (listDir order path t).result = .ok names) :
    ∀ name ∈ names, IsName name := by
  unfold listDir at h
  rw [Traced.result_ofExcept] at h
  split at h
  · next l hl =>
    cases h
    intro name hm
    rw [(order.perm _).mem_iff, FileTree.mem_names_iff (FileTree.directory_eq_ok.1 hl).2] at hm
    exact FileTree.isName_of_shape? hm
  · cases h

/-- **The sharded layout changes the alias table and blobs beside the shards**, whether it succeeds
or not. -/
theorem spares_writeSharded (order : ListingOrder) (c : Catalog) (dir : String) (t : FileTree) :
    Spares (.shards dir) t ((writeSharded order c dir).run t).tree := by
  unfold writeSharded
  refine Task.rel_bind .trans (spares_createOutputDir _ t) fun _ t₁ _ => ?_
  refine Task.rel_bind .trans (spares_writeShards dir c.tracks t₁) fun _ t₂ _ => ?_
  refine Task.rel_bind .trans (.refl _ t₂) fun names t₃ hlook => ?_
  -- the names to go through are those of the directory, so none of them leads out of it
  have hn := isName_of_listDir (Task.yields_look.1 hlook).1
  refine Task.rel_bind .trans (spares_removeStale dir c.shardNames hn t₃) fun _ t₄ _ => ?_
  refine Task.rel_bind .trans (.refl _ t₄) fun _ t₅ _ => ?_
  have hwrite : Spares (.shards dir) t₅ ((writeBlob .aliases (aliasFile dir) c.aliases).run t₅).tree :=
    spares_writeBlob .aliases c.aliases (aliasFile dir) t₅ fun m hm => .inl hm
  exact Task.rel_bind .trans hwrite fun _ t₆ _ => .refl _ t₆

end TrackCatalog
