import TrackCatalog.Proofs.Files.Operations

/-!
# Creating directories

A directory is created from the nearest one above it that is there. Whether all of it succeeds or
not, directories on the way come to stand where nothing stood, and nothing else changes
(`FileTree.Grown`).

* `Path.prefix_of_mem_chain`: what is created lies on the way along the path.
* `FileTree.grown_createDirs`: the effect of creating a directory.
* `FileTree.Passes.prefix_of_find`: a path without steps up leads on its way to nothing but the
  directories above its end.
-/

namespace TrackCatalog

namespace Path

variable {path : String} {ps up : List String}

theorem dropEmptyParts_suffix (ps : List String) : dropEmptyParts ps <:+ ps := by
  fun_induction dropEmptyParts ps with
  | case1 p q rest _ ih => exact ih.trans (List.suffix_cons p _)
  | case2 => exact List.suffix_rfl
  | case3 => exact List.suffix_rfl

theorem suffix_of_above (h : above ps = some up) : up <:+ ps := by
  unfold above at h
  split at h
  · simp at h
  · split at h
    · simp at h
    · cases h
      exact List.nil_suffix
  · cases h
    exact (dropEmptyParts_suffix _).trans (List.suffix_cons _ _)

theorem suffix_of_mem_ancestorsOf {n : Nat} {q : List String} (h : q ∈ ancestorsOf n ps) :
    q ≠ [] ∧ q <:+ ps := by
  induction n generalizing ps with
  | zero => simp [ancestorsOf] at h
  | succ n ih =>
    rw [ancestorsOf] at h
    split at h
    · simp at h
    · next up hup =>
      split at h
      · next hsome =>
        have hs := suffix_of_above hup
        rcases List.mem_cons.1 h with rfl | h
        · refine ⟨?_, hs⟩
          rintro rfl
          simp [above] at hsome
        · exact ⟨(ih h).1, (ih h).2.trans hs⟩
      · simp at h

/-- Slashes at the end of a path add empty parts only. -/
theorem parts_withoutTrailingSlashes_prefix (path : String) :
    parts (withoutTrailingSlashes path) <+: parts path := by
  have hsplit : path.toList = (path.toList.reverse.dropWhile (· = '/')).reverse ++
      (path.toList.reverse.takeWhile (· = '/')).reverse := by
    rw [← List.reverse_append, List.takeWhile_append_dropWhile, List.reverse_reverse]
  rcases hs : (path.toList.reverse.takeWhile (· = '/')).reverse with _ | ⟨c, cs⟩
  · rw [hs, List.append_nil] at hsplit
    refine ⟨[], ?_⟩
    rw [List.append_nil, withoutTrailingSlashes, ← hsplit, String.ofList_toList]
  · have hm : c ∈ path.toList.reverse.takeWhile (· = '/') := by
      rw [← List.mem_reverse, hs]
      exact List.mem_cons_self
    have hc : c = '/' := by simpa using List.all_eq_true.1 List.all_takeWhile c hm
    subst hc
    rw [hs] at hsplit
    rw [parts_append_slash hsplit]
    exact List.prefix_append _ _

/-- What is created on the way to a directory lies on the way along its path. -/
theorem prefix_of_mem_chain {q : List String} (h : q ∈ chain path) :
    q ≠ [] ∧ q.reverse <+: parts path := by
  unfold chain at h
  dsimp only at h
  split at h
  · simp at h
  · rw [List.mem_cons] at h
    rcases h with h | h
    · rw [h, List.reverse_reverse]
      exact ⟨by simpa using parts_ne_nil _, parts_withoutTrailingSlashes_prefix path⟩
    · obtain ⟨hne, hs⟩ := suffix_of_mem_ancestorsOf h
      refine ⟨hne, ?_⟩
      rw [← List.reverse_reverse (parts path), List.reverse_prefix]
      exact hs.trans (dropEmptyParts_suffix _)

end Path

namespace FileTree

variable {t t' u : FileTree} {l m : Location} {path : String}

/-- The path leads to the location on its way, or in the end. -/
def Passes (t : FileTree) (path : String) (m : Location) : Prop :=
  ∃ ps, ps <+: Path.parts path ∧ t.locate (t.origin (Path.isAbsolute path)) ps = .ok m

/-- Beyond what `t` has, `t'` has directories that the path passes. -/
structure Grown (t t' : FileTree) (path : String) : Prop where
  home : t'.home = t.home
  shape : ∀ m, t'.shape? m = t.shape? m ∨ t.shape? m = none ∧ t'.IsDir m ∧ t'.Passes path m

theorem Passes.mono (h : t.Passes path m) (hk : KeepsDirs t t') : t'.Passes path m := by
  obtain ⟨ps, hps, hl⟩ := h
  refine ⟨ps, hps, ?_⟩
  rw [hk.origin]
  exact locate_mono hk.isDir hl

/-- Without steps up, a path passes nothing but its end and the directories above. -/
theorem Passes.prefix_of_find (h : t.Passes path m) (hup : ".." ∉ Path.parts path)
    (hl : t.find path = .ok l) : m <+: l := by
  obtain ⟨ps, ⟨qs, hqs⟩, hps⟩ := h
  unfold find at hl
  split at hl
  · simp at hl
  · rw [← hqs] at hl hup
    obtain ⟨d, hd, hrest⟩ := locate_append_eq_ok.1 hl
    rw [hps] at hd
    cases hd
    exact prefix_of_locate (fun hq => hup (List.mem_append_right _ hq)) hrest

theorem Grown.refl (t : FileTree) (path : String) : Grown t t path := ⟨rfl, fun _ => .inl rfl⟩

theorem Grown.keepsDirs (h : Grown t t' path) : KeepsDirs t t' := by
  refine ⟨h.home, fun d hd => ?_⟩
  rcases h.shape d with hs | ⟨hs, -, -⟩
  · rw [IsDir, hs]
    exact hd
  · exact absurd hs hd.shape?_ne_none

theorem Grown.trans (h : Grown t u path) (h' : Grown u t' path) : Grown t t' path := by
  refine ⟨h'.home.trans h.home, fun m => ?_⟩
  rcases h.shape m with hs | ⟨hs, hd, hp⟩
  · rw [← hs]
    exact h'.shape m
  · exact .inr ⟨hs, h'.keepsDirs.isDir m hd, hp.mono h'.keepsDirs⟩

theorem grown_ensureDir {q : List String} (hq : q ≠ [] ∧ q.reverse <+: Path.parts path)
    (hn : Path.Nameable (Path.parts path)) (h : t.ensureDir (Path.isAbsolute path) q = .ok t') :
    Grown t t' path := by
  unfold ensureDir at h
  rw [start_eq, walk_placeAt] at h
  cases hl : t.locate (t.origin (Path.isAbsolute path)) q.reverse with
  | error e => simp [hl, Except.map] at h
  | ok m =>
    simp only [hl, Except.map, here_placeAt, location_placeAt] at h
    rcases hnode : t.node? m with _ | _ | held
    · simp only [hnode, Except.ok.injEq] at h
      subst h
      have hfree : t.shape? m = none := shape?_eq_none_iff.2 hnode
      obtain ⟨d, name, rfl, hd, hname⟩ := parent_of_locate (by simpa using hq.1)
        (fun part hp => hn part (hq.2.subset hp)) hl hfree
      have hc : ChangedAt t (t.putDir (d ++ [name])) (d ++ [name]) (some .dir) :=
        ⟨home_change _ _, shape?_putDir hd hname hfree⟩
      have hk : KeepsDirs t (t.putDir (d ++ [name])) :=
        hc.keepsDirs fun hd => hd.shape?_ne_none hfree
      have hp : t.Passes path (d ++ [name]) := ⟨_, hq.2, hl⟩
      refine ⟨hc.home, fun m => ?_⟩
      by_cases hm : m = d ++ [name]
      · subst hm
        exact .inr ⟨hfree, hc.shape_self, hp.mono hk⟩
      · exact .inl (hc.shape_of_ne hm)
    · simp [hnode] at h
    · simp only [hnode, Except.ok.injEq] at h
      subst h
      exact .refl _ _

/-- On the way up at most one directory is created. -/
theorem grown_climb {chain missing ms : List (List String)}
    (hc : ∀ q ∈ chain, q ≠ [] ∧ q.reverse <+: Path.parts path)
    (hn : Path.Nameable (Path.parts path))
    (h : t.climb (Path.isAbsolute path) missing chain = .ok (u, ms)) :
    Grown t u path ∧ ∀ q ∈ ms, q ∈ missing ∨ q ∈ chain := by
  induction chain generalizing missing with
  | nil =>
    cases h
    exact ⟨.refl _ _, fun q hq => .inl hq⟩
  | cons reversed chain ih =>
    rw [climb] at h
    split at h
    · next hstep =>
      cases h
      exact ⟨grown_ensureDir (hc reversed List.mem_cons_self) hn hstep, fun q hq => .inl hq⟩
    · obtain ⟨hg, hms⟩ := ih (fun q hq => hc q (List.mem_cons_of_mem _ hq)) h
      refine ⟨hg, fun q hq => ?_⟩
      rcases hms q hq with hq | hq
      · rcases List.mem_cons.1 hq with rfl | hq
        · exact .inr List.mem_cons_self
        · exact .inl hq
      · exact .inr (List.mem_cons_of_mem _ hq)
    · simp at h

theorem grown_descend {chain : List (List String)}
    (hc : ∀ q ∈ chain, q ≠ [] ∧ q.reverse <+: Path.parts path)
    (hn : Path.Nameable (Path.parts path)) :
    Grown t (t.descend (Path.isAbsolute path) chain).1 path := by
  induction chain generalizing t with
  | nil => exact .refl _ _
  | cons reversed chain ih =>
    rw [descend]
    split
    · next u hstep =>
      have hg := grown_ensureDir (hc reversed List.mem_cons_self) hn hstep
      exact hg.trans (ih fun q hq => hc q (List.mem_cons_of_mem _ hq))
    · exact .refl _ _

/-- **Creating a directory** adds directories on the way to it, also when it is refused in the
end. -/
theorem grown_createDirs (t : FileTree) (path : String) : Grown t (t.createDirs path).1 path := by
  unfold createDirs
  split
  · exact .refl _ _
  · split
    · exact .refl _ _
    · next hp =>
      -- the directories that were passed on the way up lie on the same path
      have hc : ∀ q ∈ Path.chain path, q ≠ [] ∧ q.reverse <+: Path.parts path :=
        fun q hq => Path.prefix_of_mem_chain hq
      have hn := Path.nameable_parts (pathFault?_eq_none hp)
      unfold createChain
      split
      · next u ms hclimb =>
        obtain ⟨hg, hms⟩ := grown_climb hc hn hclimb
        exact hg.trans
          (grown_descend (fun q hq => hc q ((hms q hq).resolve_left List.not_mem_nil)) hn)
      · exact .refl _ _

end FileTree

end TrackCatalog
