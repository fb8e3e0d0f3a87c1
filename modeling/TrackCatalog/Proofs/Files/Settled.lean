import TrackCatalog.Proofs.Files.Replacement

/-!
# What stands there already

Putting a file where it stands with the same bytes leaves the very same tree, its order of entries
included, and so does creating a directory that is there. Neither is refused where it was once
carried out, as long as no directory has gone since.

* `FileTree.putFile_eq_self`: a file that is put where it stands.
* `FileTree.replaceFile_eq_self`: a file that was put in place once is put in place again.
* `FileTree.createDirs_eq_self`: a directory that was created once is created again.
-/

namespace TrackCatalog

namespace Contents

variable {held inner : Contents} {name : String} {bytes : Bytes} {change : Contents → Contents}
  {d : Location}

/-- What a directory holds under a name is found under it. -/
theorem Sound.lookup_of_mem (hs : held.Sound) {e : String × Node} (he : e ∈ held) :
    held.lookup e.1 = some e.2 := by
  have hn := hs.nodup
  clear hs
  induction held with
  | nil => simp at he
  | cons f held ih =>
    rw [List.map_cons, List.nodup_cons] at hn
    rw [List.lookup_cons]
    rcases List.mem_cons.1 he with rfl | he
    · rw [beq_self_eq_true]
    · have hne : (e.1 == f.1) = false :=
        beq_false_of_ne fun h => hn.1 (h ▸ List.mem_map_of_mem he)
      rw [hne]
      exact ih he hn.2

theorem putFile_eq_self (hs : held.Sound) (h : held.lookup name = some (.file bytes)) :
    held.putFile bytes name = held := by
  unfold putFile
  split
  · rw [h]
    refine (List.map_congr_left fun e he => ?_).trans (List.map_id held)
    by_cases hname : e.1 = name
    · -- the name is there once, so this is the entry that was found
      have hfound := hs.lookup_of_mem he
      rw [hname, h] at hfound
      rw [if_pos hname, Option.some.inj hfound, id]
    · rw [if_neg hname, id]
  · rfl

/-- A change that leaves the directory it is made in leaves all of them. -/
theorem update_eq_self (hs : held.Sound) (hd : (Node.dir held).below? d = some (.dir inner))
    (hc : change inner = inner) : held.update change d = held := by
  induction d generalizing held with
  | nil =>
    obtain rfl : held = inner := by simpa using hd
    exact hc
  | cons name d ih =>
    rw [Node.below?_dir_cons, Option.bind_eq_some_iff] at hd
    obtain ⟨n, hn, hd⟩ := hd
    rw [update_cons]
    refine (List.map_congr_left fun e he => ?_).trans (List.map_id held)
    obtain ⟨k, m⟩ := e
    cases m with
    | file bytes => rfl
    | dir below =>
      dsimp only [id]
      by_cases hk : k = name
      · have hfound := hs.lookup_of_mem he
        dsimp only at hfound
        rw [hk, hn] at hfound
        cases hfound
        rw [if_pos hk, ih (hs.below he) hd]
      · rw [if_neg hk]

end Contents

namespace FileTree

variable {t t' u : FileTree} {l m : Location} {path : String} {bytes : Bytes} {fromRoot : Bool}
  {q : List String} {chain missing ms : List (List String)}

/-! ## Files -/

/-- **Putting a file where it stands changes nothing.** -/
theorem putFile_eq_self (h : t.IsFile l bytes) : t.putFile l bytes = t := by
  rcases List.eq_nil_or_concat l with rfl | ⟨d, name, rfl⟩
  · exact absurd (isDir_root t) h.not_isDir
  · rw [List.concat_eq_append] at h ⊢
    obtain ⟨held, hheld⟩ := isDir_iff.1 (shape?_parent h.shape?_ne_none)
    rw [isFile_iff, node?_concat, hheld] at h
    have hself : t.contents.update (Contents.putFile bytes name) d = t.contents :=
      Contents.update_eq_self t.sound hheld
        (Contents.putFile_eq_self (sound_of_node? hheld) h)
    obtain ⟨home, contents, sound⟩ := t
    simp [putFile, change, hself]

/-- A file takes the place that it took, as long as no directory stands there. -/
theorem target_mono (hk : KeepsDirs t u) (h : t.target path = .ok l) (hd : ¬ u.IsDir l) :
    u.target path = .ok l := by
  rw [target_eq] at h ⊢
  rw [hk.origin]
  split at h
  · cases h
  · cases h
  · split at h
    · cases h
    · next last above hparts =>
      split at h
      · cases h
      · next m hm =>
        rw [locate_mono hk.isDir hm]
        dsimp only
        split at h
        · cases h
        · next hspecial =>
          split at h
          · cases h
          · next hlen =>
            split at h
            · cases h
            · next hslash =>
              rw [if_neg hspecial, if_neg hlen, if_neg hslash]
              split at h
              · cases h
              · cases h
                split
                · next hdir => exact absurd hdir hd
                · rfl

theorem preparedDir_mono {dir : String} (hk : KeepsDirs t u) (h : t.preparedDir dir = .ok l) :
    u.preparedDir dir = .ok l := by
  have hpath : u.preparedPath dir = t.preparedPath dir := by
    rw [preparedPath, preparedPath, hk.home]
  unfold preparedDir at h ⊢
  rw [hpath]
  split at h
  · cases h
  · obtain ⟨hf, hd⟩ := directory_eq_ok.1 h
    exact directory_eq_ok.2 ⟨hk.find hf, hk.isDir l hd⟩

/-- **A file that was put in place once is put in place again**, and where it still stands this
changes nothing. -/
theorem replaceFile_eq_self (h : t.replaceFile path bytes = .ok t') (hk : KeepsDirs t u)
    (hf : u.readFile path = .ok bytes) : u.replaceFile path bytes = .ok u := by
  unfold replaceFile at h ⊢
  split at h
  · cases h
  · next d hd =>
    rw [preparedDir_mono hk hd]
    dsimp only
    split at h
    · cases h
    · next hsize =>
      rw [if_neg hsize]
      split at h
      · cases h
      · next l hl =>
        obtain ⟨-, -, -, hfind, -⟩ := target_eq_ok hl
        obtain ⟨m, hm, hfile⟩ := readFile_eq_ok.1 hf
        obtain rfl : l = m := Except.ok.inj ((hk.find hfind).symm.trans hm)
        rw [target_mono hk hl hfile.not_isDir]
        exact congrArg Except.ok (putFile_eq_self hfile)

/-! ## Directories -/

/-- The parts, listed from the last to the first, lead to a directory. -/
def LeadsToDir (t : FileTree) (fromRoot : Bool) (q : List String) : Prop :=
  ∃ m, t.locate (t.origin fromRoot) q.reverse = .ok m ∧ t.IsDir m

theorem LeadsToDir.mono (h : t.LeadsToDir fromRoot q) (hk : KeepsDirs t u) :
    u.LeadsToDir fromRoot q := by
  obtain ⟨m, hm, hd⟩ := h
  refine ⟨m, ?_, hk.isDir m hd⟩
  rw [hk.origin]
  exact locate_mono hk.isDir hm

theorem ensureDir_eq_self (h : t.LeadsToDir fromRoot q) : t.ensureDir fromRoot q = .ok t := by
  obtain ⟨m, hm, hd⟩ := h
  obtain ⟨held, hheld⟩ := isDir_iff.1 hd
  unfold ensureDir
  rw [start_eq, walk_placeAt, hm]
  simp only [Except.map, here_placeAt, hheld]

/-- A directory that is ensured is there. -/
theorem leadsToDir_of_ensureDir (hq : q ≠ [] ∧ q.reverse <+: Path.parts path)
    (hn : Path.Nameable (Path.parts path)) (h : t.ensureDir (Path.isAbsolute path) q = .ok t') :
    t'.LeadsToDir (Path.isAbsolute path) q := by
  have hk := (grown_ensureDir hq hn h).keepsDirs
  unfold ensureDir at h
  rw [start_eq, walk_placeAt] at h
  cases hl : t.locate (t.origin (Path.isAbsolute path)) q.reverse with
  | error e =>
    rw [hl] at h
    cases h
  | ok m =>
    have hl' : t'.locate (t'.origin (Path.isAbsolute path)) q.reverse = .ok m := by
      rw [hk.origin]
      exact locate_mono hk.isDir hl
    refine ⟨m, hl', ?_⟩
    rw [hl] at h
    simp only [Except.map, here_placeAt, location_placeAt] at h
    rcases hnode : t.node? m with _ | _ | held
    · simp only [hnode, Except.ok.injEq] at h
      subst h
      have hfree : t.shape? m = none := shape?_eq_none_iff.2 hnode
      obtain ⟨d, name, rfl, hd, hname⟩ := parent_of_locate (by simpa using hq.1)
        (fun part hp => hn part (hq.2.subset hp)) hl hfree
      rw [IsDir, shape?_putDir hd hname hfree, if_pos rfl]
    · simp [hnode] at h
    · exact hk.isDir m (isDir_iff.2 ⟨held, hnode⟩)

/-- On the way down each directory comes to stand there. -/
theorem leadsToDir_of_descend (hc : ∀ q ∈ chain, q ≠ [] ∧ q.reverse <+: Path.parts path)
    (hn : Path.Nameable (Path.parts path))
    (h : t.descend (Path.isAbsolute path) chain = (t', .ok ())) (hq : q ∈ chain) :
    t'.LeadsToDir (Path.isAbsolute path) q := by
  induction chain generalizing t with
  | nil => simp at hq
  | cons r chain ih =>
    obtain ⟨hr, hrest⟩ := List.forall_mem_cons.1 hc
    rw [descend] at h
    split at h
    · next u hstep =>
      rcases List.mem_cons.1 hq with rfl | hq
      · have hg := grown_descend (t := u) hrest hn
        rw [h] at hg
        exact (leadsToDir_of_ensureDir hr hn hstep).mono hg.keepsDirs
      · exact ih hrest h hq
    · cases h

/-- The way up leaves to the way down what was missing already. -/
theorem mem_of_climb (h : t.climb fromRoot missing chain = .ok (u, ms)) (hq : q ∈ missing) :
    q ∈ ms := by
  induction chain generalizing missing with
  | nil =>
    cases h
    exact hq
  | cons r chain ih =>
    rw [climb] at h
    split at h
    · cases h
      exact hq
    · exact ih h (List.mem_cons_of_mem _ hq)
    · cases h

/-- A chain of directories ends where it is meant to. -/
theorem leadsToDir_of_createChain (hc : ∀ r ∈ q :: chain, r ≠ [] ∧ r.reverse <+: Path.parts path)
    (hn : Path.Nameable (Path.parts path))
    (h : t.createChain (Path.isAbsolute path) (q :: chain) = (t', .ok ())) :
    t'.LeadsToDir (Path.isAbsolute path) q := by
  unfold createChain at h
  split at h
  · next u ms hclimb =>
    have hms := (grown_climb hc hn hclimb).2
    have hall : ∀ r ∈ ms, r ≠ [] ∧ r.reverse <+: Path.parts path :=
      fun r hr => hc r ((hms r hr).resolve_left List.not_mem_nil)
    rw [climb] at hclimb
    split at hclimb
    · next hstep =>
      cases hclimb
      cases h
      exact leadsToDir_of_ensureDir (hc q List.mem_cons_self) hn hstep
    · -- the last directory is missing until the way down comes to it
      exact leadsToDir_of_descend hall hn h (mem_of_climb hclimb List.mem_cons_self)
    · cases hclimb
  · cases h

/-- **A directory that was created once is created again**, and this changes nothing. -/
theorem createDirs_eq_self (h : t.createDirs path = (t', .ok ())) (hk : KeepsDirs t' u) :
    u.createDirs path = (u, .ok ()) := by
  unfold createDirs at h ⊢
  split at h
  · rfl
  · next hchain =>
    split at h
    · cases h
    · next hp =>
      obtain ⟨q, chain, hqc⟩ := List.exists_cons_of_ne_nil (fun e => hchain e)
      have hc : ∀ r ∈ q :: chain, r ≠ [] ∧ r.reverse <+: Path.parts path := by
        rw [← hqc]
        exact fun r hr => Path.prefix_of_mem_chain hr
      rw [hqc] at h ⊢
      have hdir := leadsToDir_of_createChain hc (Path.nameable_parts (pathFault?_eq_none hp)) h
      rw [createChain, climb, ensureDir_eq_self (hdir.mono hk)]
      rfl

end FileTree

end TrackCatalog
