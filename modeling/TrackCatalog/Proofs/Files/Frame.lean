import TrackCatalog.Proofs.Files.Directories

/-!
# What a change spares

A frame is said of files only: outside some territory, each location has the same file before and
after, with the same bytes, or has none before and after. Directories may come, but none goes.

* `Territory`: locations that are named by paths.
* `FileTree.Spares`: the frame; it composes (`Spares.trans`) along a run.
* `FileTree.spares_of_changedAt`, `Grown.spares`: the frames of single changes.
-/

namespace TrackCatalog

open FileTree (KeepsDirs ChangedAt Grown)

variable {t t' u : FileTree} {l m : Location} {path dir sub name : String}

/-- Locations that paths lead to in a tree, and still lead to when directories are added. -/
structure Territory where
  Holds : FileTree → Location → Prop
  mono : ∀ {t t' : FileTree} {m : Location}, KeepsDirs t t' → Holds t m → Holds t' m

namespace Territory

/-- No location at all. -/
def nowhere : Territory := ⟨fun _ _ => False, fun _ h => h⟩

/-- The place that a path leads to. -/
def ofPath (path : String) : Territory :=
  ⟨fun t m => t.find path = .ok m, fun hk h => hk.find h⟩

end Territory

namespace FileTree

/-- Outside the territory the trees have the same files, and no directory went. -/
structure Spares (T : Territory) (t t' : FileTree) : Prop where
  keepsDirs : KeepsDirs t t'
  isFile : ∀ m, ¬ T.Holds t' m → ∀ bytes, t'.IsFile m bytes ↔ t.IsFile m bytes

variable {T : Territory}

theorem Spares.refl (T : Territory) (t : FileTree) : Spares T t t :=
  ⟨.refl t, fun _ _ _ => Iff.rfl⟩

/-- **Two frames in a row.** What is outside the territory in the end was outside it before. -/
theorem Spares.trans (h : Spares T t u) (h' : Spares T u t') : Spares T t t' := by
  refine ⟨h.keepsDirs.trans h'.keepsDirs, fun m hm bytes => ?_⟩
  have hbefore : ¬ T.Holds u m := fun hu => hm (T.mono h'.keepsDirs hu)
  exact (h'.isFile m hm bytes).trans (h.isFile m hbefore bytes)

/-- A change at one location of the territory, where no directory stood. -/
theorem spares_of_changedAt {new : Option Shape} (hc : ChangedAt t t' l new) (hd : ¬ t.IsDir l)
    (hl : T.Holds t l) : Spares T t t' := by
  have hk := hc.keepsDirs hd
  refine ⟨hk, fun m hm bytes => ?_⟩
  have hne : m ≠ l := by
    rintro rfl
    exact hm (T.mono hk hl)
  unfold IsFile
  rw [hc.shape_of_ne hne]

theorem isFile_iff_of_created (hnone : t.shape? m = none) (hd : t'.IsDir m) (bytes : Bytes) :
    t'.IsFile m bytes ↔ t.IsFile m bytes := by
  constructor
  · intro hf
    exact absurd hd hf.not_isDir
  · intro hf
    exact absurd hnone hf.shape?_ne_none

theorem Grown.spares (h : Grown t t' path) : Spares T t t' := by
  refine ⟨h.keepsDirs, fun m _ bytes => ?_⟩
  rcases h.shape m with hs | ⟨hnone, hd, -⟩
  · unfold IsFile
    rw [hs]
  · exact isFile_iff_of_created hnone hd bytes

theorem pathFault?_eq_none_iff :
    pathFault? path = none ↔
      '\x00' ∉ path.toList ∧ path ≠ "" ∧ path.utf8ByteSize ≤ maxPath := by
  unfold pathFault?
  by_cases hnul : '\x00' ∈ path.toList
  · simp [hnul]
  · by_cases hempty : path = ""
    · simp [hempty]
    · simp [hnul, hempty]

/-- A path is fit when one is that goes on from it. -/
theorem pathFault?_of_join (hn : Path.IsPart name) (hdir : dir ≠ "")
    (h : pathFault? (Path.join dir name) = none) : pathFault? dir = none := by
  obtain ⟨rest, hrest⟩ : ∃ rest, Path.join dir name = dir ++ rest := by
    rw [Path.join_eq hn.not_isAbsolute, if_neg hdir]
    split
    · exact ⟨name, rfl⟩
    · exact ⟨"/" ++ name, String.append_assoc ..⟩
  rw [hrest, pathFault?_eq_none_iff] at h
  obtain ⟨hnul, -, hlen⟩ := h
  rw [String.utf8ByteSize_append] at hlen
  rw [pathFault?_eq_none_iff]
  refine ⟨fun hm => hnul ?_, hdir, by omega⟩
  rw [String.toList_append]
  exact List.mem_append_left _ hm

/-- What stands in a directory by name is found through the directory. -/
theorem directory_of_find_join (hsub : Path.IsPart sub) (hn : Path.IsPart name)
    (hs : name ∉ ["", ".", ".."])
    (h : t.find (Path.join (Path.join dir sub) name) = .ok m) :
    ∃ l, t.directory (Path.join dir sub) = .ok l ∧ m = l ++ [name] := by
  obtain ⟨l, hl, hd, rfl⟩ := find_join_name hn hs h
  refine ⟨l, directory_eq_ok.2 ⟨?_, hd⟩, rfl⟩
  have hne : Path.join dir sub ≠ "" := by
    intro he
    obtain ⟨xs, hxs⟩ := Path.toList_join dir hsub
    rw [he] at hxs
    exact hsub.toList_ne_nil (List.append_eq_nil_iff.1 hxs.symm).2
  have hfault := pathFault?_of_join hn hne ((find_join_eq_ok hn).1 h).1
  exact (find_join_eq_ok hsub).2 ⟨hfault, hl⟩

end FileTree

end TrackCatalog
