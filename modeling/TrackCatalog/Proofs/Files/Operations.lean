import TrackCatalog.Proofs.Files.Walk

/-!
# What file operations do

Each operation on a path finds a location and reads what stands there, or changes the tree at that
location alone (`FileTree.ChangedAt`). No operation takes a directory away, so paths keep leading
where they led (`FileTree.KeepsDirs`).

* `readFile_eq_ok`, `open?_eq_ok`, `directory_eq_ok`: reading.
* `changedAt_of_replaceFile`, `changedAt_of_removeFile`: the changes.
* `readFile_of_replaceFile`: a file that was put in place is read back.
-/

namespace TrackCatalog.FileTree

variable {t t' u : FileTree} {l m d : Location} {path dir name : String} {bytes : Bytes}
  {new : Option Shape}

/-- The trees differ in what stands at one location, where `t'` has `new`. -/
structure ChangedAt (t t' : FileTree) (l : Location) (new : Option Shape) : Prop where
  home : t'.home = t.home
  shape : ∀ m, t'.shape? m = if m = l then new else t.shape? m

/-- What is a directory in `t` is one in `t'`. -/
structure KeepsDirs (t t' : FileTree) : Prop where
  home : t'.home = t.home
  isDir : ∀ d, t.IsDir d → t'.IsDir d

theorem KeepsDirs.refl (t : FileTree) : KeepsDirs t t := ⟨rfl, fun _ h => h⟩

theorem KeepsDirs.trans (h : KeepsDirs t t') (h' : KeepsDirs t' u) : KeepsDirs t u :=
  ⟨h'.home.trans h.home, fun d hd => h'.isDir d (h.isDir d hd)⟩

theorem ChangedAt.keepsDirs (h : ChangedAt t t' l new) (hl : ¬ t.IsDir l) : KeepsDirs t t' := by
  refine ⟨h.home, fun d hd => ?_⟩
  have hne : d ≠ l := fun e => hl (e ▸ hd)
  rw [IsDir, h.shape, if_neg hne]
  exact hd

theorem ChangedAt.shape_self (h : ChangedAt t t' l new) : t'.shape? l = new := by
  rw [h.shape, if_pos rfl]

theorem ChangedAt.shape_of_ne (h : ChangedAt t t' l new) (hm : m ≠ l) :
    t'.shape? m = t.shape? m := by
  rw [h.shape, if_neg hm]

theorem KeepsDirs.origin (h : KeepsDirs t t') (fromRoot : Bool) :
    t'.origin fromRoot = t.origin fromRoot := by
  simp [FileTree.origin, h.home]

/-- A path leads where it did. -/
theorem KeepsDirs.find (h : KeepsDirs t t') (hl : t.find path = .ok l) : t'.find path = .ok l := by
  unfold FileTree.find at hl ⊢
  cases hp : pathFault? path with
  | some e => simp [hp] at hl
  | none =>
    rw [hp] at hl
    rw [h.origin]
    exact locate_mono h.isDir hl

/-- The location that names joined to a directory's path are taken from. -/
def base (t : FileTree) (dir : String) : Except FileFault Location :=
  t.locate (t.origin (Path.isAbsolute dir)) (Path.leading dir)

theorem KeepsDirs.base (h : KeepsDirs t t') (hl : t.base dir = .ok l) : t'.base dir = .ok l := by
  unfold FileTree.base at hl ⊢
  rw [h.origin]
  exact locate_mono h.isDir hl

theorem base_join_eq_ok (hn : Path.IsPart name) :
    t.base (Path.join dir name) = .ok l ↔ ∃ d, t.base dir = .ok d ∧ t.step d name = .ok l := by
  rw [base, Path.isAbsolute_join hn, Path.leading_join hn, locate_append_eq_ok]
  simp only [locate_singleton, base]

theorem find_join_eq_ok (hn : Path.IsPart name) :
    t.find (Path.join dir name) = .ok l ↔
      pathFault? (Path.join dir name) = none ∧ t.base (Path.join dir name) = .ok l := by
  unfold find base
  cases pathFault? (Path.join dir name) with
  | some e => simp
  | none => simp [Path.parts_join hn, Path.leading_join hn]

/-- A name that is joined to a directory leads to a location in it. -/
theorem find_join_name (hn : Path.IsPart name) (hs : name ∉ ["", ".", ".."])
    (h : t.find (Path.join dir name) = .ok l) :
    ∃ d, t.base dir = .ok d ∧ t.IsDir d ∧ l = d ++ [name] := by
  obtain ⟨-, hb⟩ := (find_join_eq_ok hn).1 h
  obtain ⟨d, hd, hstep⟩ := (base_join_eq_ok hn).1 hb
  obtain ⟨hdir, ⟨h0, -⟩ | ⟨h0, -⟩ | ⟨-, -, rfl⟩⟩ := step_eq_ok.1 hstep
  · exact absurd (by simp_all) hs
  · exact absurd (by simp_all) hs
  · exact ⟨d, hd, hdir, rfl⟩

theorem find_join_of_base (hn : Path.IsPart name) (hs : name ∉ ["", ".", ".."])
    (hd : t.base dir = .ok d) (h : t.find (Path.join dir name) = .ok l) : l = d ++ [name] := by
  obtain ⟨d', hd', -, rfl⟩ := find_join_name hn hs h
  rw [hd] at hd'
  cases hd'
  rfl

theorem open?_eq_ok {n : Node} :
    t.open? path = .ok n ↔ ∃ l, t.find path = .ok l ∧ t.node? l = some n := by
  unfold open?
  rw [resolve_eq]
  cases t.find path with
  | error e => simp [Except.map]
  | ok l =>
    simp only [Except.map, here_placeAt, Except.ok.injEq]
    cases hn : t.node? l <;> simp [hn]

theorem readFile_eq_ok_iff_open? :
    t.readFile path = .ok bytes ↔ t.open? path = .ok (.file bytes) := by
  unfold readFile
  split <;> simp_all

theorem readFile_eq_notFound_iff_open? :
    t.readFile path = .error .notFound ↔ t.open? path = .error .notFound := by
  unfold readFile
  split <;> simp_all

theorem readFile_eq_ok :
    t.readFile path = .ok bytes ↔ ∃ l, t.find path = .ok l ∧ t.IsFile l bytes := by
  rw [readFile_eq_ok_iff_open?, open?_eq_ok]
  simp only [isFile_iff]

theorem directory_eq_ok : t.directory path = .ok l ↔ t.find path = .ok l ∧ t.IsDir l := by
  unfold directory
  rw [resolve_eq, isDir_iff]
  cases t.find path with
  | error e => simp [Except.map]
  | ok m =>
    simp only [Except.map, here_placeAt, location_placeAt, Except.ok.injEq]
    rcases hm : t.node? m with _ | _ | held
    · simp only [reduceCtorEq, false_iff]
      rintro ⟨rfl, held, hh⟩
      simp [hm] at hh
    · simp only [reduceCtorEq, false_iff]
      rintro ⟨rfl, held, hh⟩
      simp [hm] at hh
    · simp only [Except.ok.injEq]
      exact ⟨fun h => ⟨h, held, h ▸ hm⟩, And.left⟩

theorem KeepsDirs.directory (h : KeepsDirs t t') (hl : t.directory path = .ok l) :
    t'.directory path = .ok l := by
  obtain ⟨hf, hd⟩ := directory_eq_ok.1 hl
  exact directory_eq_ok.2 ⟨h.find hf, h.isDir l hd⟩

theorem base_join_of_directory (hn : Path.IsPart name)
    (h : t.directory (Path.join dir name) = .ok l) : t.base (Path.join dir name) = .ok l :=
  ((find_join_eq_ok hn).1 (directory_eq_ok.1 h).1).2

/-- **Taking a file away** changes the tree where it stood. -/
theorem changedAt_of_removeFile (h : t.removeFile path = .ok t') :
    ∃ l bytes, t.find path = .ok l ∧ t.IsFile l bytes ∧ ChangedAt t t' l none := by
  unfold removeFile at h
  rw [resolve_eq] at h
  cases hl : t.find path with
  | error e => simp [hl, Except.map] at h
  | ok l =>
    simp only [hl, Except.map, here_placeAt, location_placeAt] at h
    rcases hn : t.node? l with _ | bytes | held
    · simp [hn] at h
    · simp only [hn, Except.ok.injEq] at h
      subst h
      have hf : t.IsFile l bytes := isFile_iff.2 hn
      rcases List.eq_nil_or_concat l with rfl | ⟨d, name, rfl⟩
      · exact absurd (isDir_root t) hf.not_isDir
      · rw [List.concat_eq_append] at hf ⊢
        exact ⟨_, bytes, rfl, hf, home_erase _ _, shape?_erase hf⟩
    · simp [hn] at h

theorem pathFault?_eq_none (h : pathFault? path = none) : '\x00' ∉ path.toList := by
  intro hc
  simp [pathFault?, hc] at h

/-- The location that a file takes is the one its path leads to. -/
theorem target_eq_ok (h : t.target path = .ok l) :
    ∃ d name, l = d ++ [name] ∧ t.find path = .ok l ∧ t.IsDir d ∧ IsName name ∧ ¬ t.IsDir l := by
  unfold target at h
  cases hp : pathFault? path with
  | some e => cases e <;> simp [hp] at h
  | none =>
    simp only [hp] at h
    split at h
    · simp at h
    · next last above hparts =>
      rw [start_eq, walk_placeAt] at h
      cases hw : t.locate (t.origin (Path.isAbsolute path)) (above.reverse ++ [""]) with
      | error e => simp [hw, Except.map] at h
      | ok d =>
        obtain ⟨d', hd', hs⟩ := locate_append_eq_ok.1 hw
        rw [locate_singleton] at hs
        obtain ⟨hdir, ⟨-, rfl⟩ | ⟨h0, -⟩ | ⟨h0, -⟩⟩ := step_eq_ok.1 hs
        · simp only [hw, Except.map, ← placeAt_concat, here_placeAt, location_placeAt] at h
          split at h
          · simp at h
          · next hspecial =>
            split at h
            · simp at h
            · next hlen =>
              split at h
              · simp at h
              · next hslash =>
                rw [Path.withoutTrailingSlashes_of_not (Bool.eq_false_iff.2 hslash)] at hparts
                have hpath : Path.parts path = above.reverse ++ [last] := by
                  rw [← List.reverse_reverse (Path.parts path), hparts, List.reverse_cons]
                have hname : IsName last := Path.isName_of_mem_parts (by simp [hpath])
                  (pathFault?_eq_none hp) (by simpa [not_or] using hspecial) (Nat.not_lt.1 hlen)
                have hfind : t.find path = .ok (d ++ [last]) := by
                  simp only [find, hp, hpath]
                  exact locate_append_eq_ok.2 ⟨d, hd', by rw [locate_singleton, step_name hdir hname]⟩
                split at h
                · simp at h
                · next hnd =>
                  cases h
                  refine ⟨d, last, rfl, hfind, hdir, hname, fun hd => ?_⟩
                  obtain ⟨held, hheld⟩ := isDir_iff.1 hd
                  exact hnd held hheld
        · simp at h0
        · simp at h0

/-- **Putting a file in place** changes the tree where its path leads. -/
theorem changedAt_of_replaceFile (h : t.replaceFile path bytes = .ok t') :
    ∃ l, t.find path = .ok l ∧ ¬ t.IsDir l ∧ ChangedAt t t' l (some (.file bytes)) := by
  unfold replaceFile at h
  split at h
  · simp at h
  · split at h
    · simp at h
    · next hsize =>
      split at h
      · simp at h
      · next l hl =>
        cases h
        obtain ⟨d, name, rfl, hf, hd, hn, hnd⟩ := target_eq_ok hl
        exact ⟨_, hf, hnd, home_change _ _, shape?_putFile hd hn (Nat.not_lt.1 hsize) hnd⟩

/-- A file that was put in place is read back. -/
theorem readFile_of_replaceFile (h : t.replaceFile path bytes = .ok t') :
    t'.readFile path = .ok bytes := by
  obtain ⟨l, hl, hnd, hc⟩ := changedAt_of_replaceFile h
  exact readFile_eq_ok.2 ⟨l, (hc.keepsDirs hnd).find hl, hc.shape_self⟩

end TrackCatalog.FileTree
