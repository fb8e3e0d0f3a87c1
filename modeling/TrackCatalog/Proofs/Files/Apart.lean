import TrackCatalog.Proofs.Files.Directories

/-!
# Apart from a directory

A relative path that has no steps up and does not start in place enters the directory of its first
part and never leaves it. Whatever changes in there is nothing to a path that enters another one.

* `Path.Enters`: a path of names, the first of which is given.
* `Path.Enters.join`, `Path.Enters.parent`: what is joined to such a path and what is above its end
  enter the same directory.
* `FileTree.SameOutside`: the trees look alike outside one directory.
* `FileTree.SameOutside.open?_eq`: a path that enters another directory leads to the same.
-/

namespace TrackCatalog

namespace Path

variable {path dir name part upper : String} {ps : List String}

/-- The path is relative and leads through names only, the first of which is `name`. -/
def Enters (path name : String) : Prop :=
  ∃ rest, parts path = name :: rest ∧ name ∉ ["", ".", ".."] ∧ ".." ∉ rest

theorem Enters.not_mem_parts (h : Enters path name) : ".." ∉ parts path := by
  obtain ⟨rest, hparts, hname, hrest⟩ := h
  rw [hparts, List.mem_cons]
  rintro (rfl | hm)
  · simp at hname
  · exact hrest hm

theorem Enters.not_isAbsolute (h : Enters path name) : isAbsolute path = false := by
  obtain ⟨rest, hparts, hname, -⟩ := h
  rw [isAbsolute, decide_eq_false_iff_not]
  intro hhead
  -- the part before a slash at the front is empty
  obtain ⟨cs, hcs⟩ := List.head?_eq_some_iff.1 hhead
  have hslash : path.toList = [] ++ '/' :: cs := hcs
  have hempty : parts (.ofList []) = [""] := parts_of_not_mem (by simp)
  rw [parts_append_slash hslash, hempty, List.singleton_append, List.cons.injEq] at hparts
  exact hname (by simp [← hparts.1])

theorem Enters.leading (h : Enters dir name) :
    ∃ rest, leading dir = name :: rest ∧ ".." ∉ rest := by
  obtain ⟨rest, hparts, hname, hrest⟩ := h
  have hne : dir ≠ "" := by
    rintro rfl
    rw [parts_of_not_mem (by simp), List.cons.injEq] at hparts
    exact hname (by simp [← hparts.1])
  rw [Path.leading, if_neg hne]
  split
  · next hs =>
    obtain ⟨xs, hxs⟩ := exists_of_hasTrailingSlash hs
    obtain ⟨p, ps, hps⟩ := List.exists_cons_of_ne_nil (parts_ne_nil (.ofList xs))
    rw [parts_append_slash hxs, hps, List.cons_append, List.cons.injEq] at hparts
    obtain ⟨rfl, rfl⟩ := hparts
    rw [parts_append_slash hxs, hps, List.cons_append]
    refine ⟨ps, ?_, fun hm => hrest (List.mem_append_left _ hm)⟩
    rw [parts_of_not_mem (by simp), ← List.cons_append, List.dropLast_concat]
  · exact ⟨rest, hparts, hrest⟩

/-- What is joined to a path enters the same directory. -/
theorem Enters.join (h : Enters dir name) (hp : isAbsolute path = false) (hup : ".." ∉ parts path) :
    Enters (join dir path) name := by
  obtain ⟨rest, hleading, hrest⟩ := h.leading
  obtain ⟨-, -, hname, -⟩ := h
  refine ⟨rest ++ parts path, ?_, hname, ?_⟩
  · rw [parts_join_of_relative hp, hleading, List.cons_append]
  · rw [List.mem_append, not_or]
    exact ⟨hrest, hup⟩

theorem Enters.join_name (h : Enters dir name) (hp : IsPart part) (hup : part ≠ "..") :
    Enters (Path.join dir part) name := by
  refine h.join hp.not_isAbsolute ?_
  rw [parts_of_not_mem hp.2, List.mem_singleton]
  exact hup.symm

theorem parts_ofParts (hne : ps ≠ []) (h : ∀ p ∈ ps, '/' ∉ p.toList) : parts (ofParts ps) = ps := by
  induction ps with
  | nil => exact absurd rfl hne
  | cons p ps ih =>
    obtain ⟨hp, hps⟩ := List.forall_mem_cons.1 h
    cases ps with
    | nil =>
      have hone : ofParts [p] = p := by simp [ofParts]
      rw [hone, parts_of_not_mem hp]
    | cons q qs =>
      have hmore : (ofParts (p :: q :: qs)).toList =
          p.toList ++ '/' :: (ofParts (q :: qs)).toList := by
        simp [ofParts]
      rw [parts_append_slash hmore, String.ofList_toList, String.ofList_toList, parts_of_not_mem hp,
        ih (by simp) hps, List.singleton_append]

/-- The path above the last part enters the same directory, unless nothing is left of it. -/
theorem Enters.parent (h : Enters path name) (hp : parent? path = some upper) (hne : upper ≠ "") :
    Enters upper name := by
  obtain ⟨rest, hparts, hname, hrest⟩ := h
  obtain ⟨up, hup, rfl⟩ := Option.map_eq_some_iff.1 hp
  have hpre : up.reverse <+: parts path := by
    rw [← List.reverse_reverse (parts path), List.reverse_prefix]
    exact (suffix_of_above hup).trans (dropEmptyParts_suffix _)
  have hslash : ∀ p ∈ up.reverse, '/' ∉ p.toList :=
    fun p hm hc => (mem_of_mem_parts (hpre.subset hm) hc).2 rfl
  rw [hparts] at hpre
  rcases List.prefix_cons_iff.1 hpre with hnil | ⟨ps, hps, hrest'⟩
  · rw [List.reverse_eq_nil_iff] at hnil
    exact absurd (by rw [hnil]; rfl) hne
  · have hof : ofReversed up = ofParts up.reverse := by
      unfold ofReversed
      split
      · -- a lone empty part would be the first one
        rw [List.reverse_singleton, List.cons.injEq] at hps
        exact absurd (by simp [← hps.1]) hname
      · rfl
    refine ⟨ps, ?_, hname, fun hm => hrest (hrest'.subset hm)⟩
    rw [hof, parts_ofParts (by simp [hps]) hslash, hps]

end Path

namespace FileTree

variable {t t' u : FileTree} {l m d : Location} {path name part : String} {parts : List String}
  {new : Option Shape}

/-! ## Where such a path leads -/

theorem origin_of_enters (hp : Path.Enters path name) (t : FileTree) :
    t.origin (Path.isAbsolute path) = t.home := by
  rw [hp.not_isAbsolute]
  rfl

/-- Going on from the first part, a walk stays below it. -/
theorem prefix_of_locate_cons (hname : name ∉ ["", ".", ".."]) (hup : ".." ∉ parts)
    (h : t.locate l (name :: parts) = .ok m) : l ++ [name] <+: m := by
  obtain ⟨d, hs, hr⟩ := locate_cons_eq_ok.1 h
  obtain ⟨-, ⟨h0, -⟩ | ⟨h0, -⟩ | ⟨-, -, rfl⟩⟩ := step_eq_ok.1 hs
  · exact absurd (by simpa using h0) (by simp_all)
  · exact absurd h0 (by simp_all)
  · exact prefix_of_locate hup hr

theorem prefix_of_find (hp : Path.Enters path name) (h : t.find path = .ok l) :
    t.home ++ [name] <+: l := by
  have horigin := origin_of_enters hp t
  obtain ⟨rest, hparts, hname, hrest⟩ := hp
  unfold find at h
  split at h
  · cases h
  · rw [horigin, hparts] at h
    exact prefix_of_locate_cons hname hrest h

/-- What the path passes is where it starts, or lies in the directory it enters. -/
theorem Passes.eq_home_or_prefix (hp : Path.Enters path name) (h : t.Passes path m) :
    m = t.home ∨ t.home ++ [name] <+: m := by
  have horigin := origin_of_enters hp t
  obtain ⟨rest, hparts, hname, hrest⟩ := hp
  obtain ⟨ps, hps, hl⟩ := h
  rw [horigin] at hl
  rw [hparts] at hps
  rcases List.prefix_cons_iff.1 hps with rfl | ⟨qs, rfl, hqs⟩
  · cases hl
    exact .inl rfl
  · exact .inr (prefix_of_locate_cons hname (fun hm => hrest (hqs.subset hm)) hl)

/-! ## Trees that look alike outside -/

/-- The trees look alike at every location that is neither `d` nor below it. -/
structure SameOutside (t t' : FileTree) (d : Location) : Prop where
  home : t'.home = t.home
  shape : ∀ m, ¬ d <+: m → t'.shape? m = t.shape? m

theorem SameOutside.trans (h : SameOutside t u d) (h' : SameOutside u t' d) : SameOutside t t' d :=
  ⟨h'.home.trans h.home, fun m hm => (h'.shape m hm).trans (h.shape m hm)⟩

theorem ChangedAt.sameOutside (h : ChangedAt t t' l new) (hl : d <+: l) : SameOutside t t' d :=
  ⟨h.home, fun _ hm => h.shape_of_ne fun e => hm (e ▸ hl)⟩

theorem Grown.sameOutside (h : Grown t t' path) (hp : Path.Enters path name)
    (hhome : t.IsDir t.home) : SameOutside t t' (t.home ++ [name]) := by
  refine ⟨h.home, fun m hm => (h.shape m).resolve_right ?_⟩
  rintro ⟨hnone, -, hpasses⟩
  rcases hpasses.eq_home_or_prefix hp with rfl | hpre
  · rw [h.home] at hnone
    exact hhome.shape?_ne_none hnone
  · rw [h.home] at hpre
    exact hm hpre

/-- A walk that stays away from `d` does not see what changed there. -/
theorem SameOutside.locate_eq (h : SameOutside t t' d) (hup : ".." ∉ parts)
    (hl : ∀ m, l <+: m → ¬ d <+: m) : t'.locate l parts = t.locate l parts := by
  induction parts generalizing l with
  | nil => rfl
  | cons part parts ih =>
    have hstep : t'.step l part = t.step l part := by
      unfold step
      rw [h.shape l (hl l List.prefix_rfl)]
    rw [locate_cons, locate_cons, hstep]
    cases hk : t.step l part with
    | error e => rfl
    | ok k =>
      refine ih (fun hm => hup (List.mem_cons_of_mem _ hm)) fun m hm => hl m (.trans ?_ hm)
      rw [← locate_singleton] at hk
      exact prefix_of_locate (fun hm => hup (by simp_all)) hk

/-- **A path that enters another directory leads where it did**, and to what was there. -/
theorem SameOutside.find_eq (h : SameOutside t t' (t.home ++ [name])) (hp : Path.Enters path part)
    (hne : part ≠ name) :
    t'.find path = t.find path ∧ ∀ l, t.find path = .ok l → t'.shape? l = t.shape? l := by
  -- below the other directory nothing is below this one
  have happart : ∀ m, t.home ++ [part] <+: m → ¬ t.home ++ [name] <+: m := by
    intro m hm hm'
    have heq := List.prefix_of_prefix_length_le hm hm' (by simp)
    have hlast := (List.append_inj' (heq.eq_of_length (by simp)) rfl).2
    rw [List.singleton_inj] at hlast
    exact hne hlast
  have hhome : ¬ t.home ++ [name] <+: t.home := fun hpre => by
    have hlen := hpre.length_le
    rw [List.length_append, List.length_singleton] at hlen
    omega
  have hstep : t'.step t.home part = t.step t.home part := by
    unfold step
    rw [h.shape _ hhome]
  refine ⟨?_, fun l hl => h.shape l (happart l (prefix_of_find hp hl))⟩
  have horigin := origin_of_enters hp t
  have horigin' := origin_of_enters hp t'
  obtain ⟨rest, hparts, hname, hrest⟩ := hp
  have hwalk : t'.locate t.home (part :: rest) = t.locate t.home (part :: rest) := by
    rw [locate_cons, locate_cons, hstep]
    cases hk : t.step t.home part with
    | error e => rfl
    | ok k =>
      rw [← locate_singleton] at hk
      have hpre := prefix_of_locate_cons hname List.not_mem_nil hk
      exact h.locate_eq hrest fun m hm => happart m (hpre.trans hm)
  unfold find
  rw [horigin, horigin', h.home, hparts, hwalk]

theorem map_shape_open? (t : FileTree) (path : String) :
    (t.open? path).map Node.shape = (t.find path).bind fun l =>
      match t.shape? l with
      | some s => .ok s
      | none => .error .notFound := by
  unfold open?
  rw [resolve_eq]
  cases t.find path with
  | error e => rfl
  | ok l =>
    simp only [Except.map, here_placeAt, Except.bind, shape?]
    cases t.node? l <;> rfl

/-- **What stands at a path that enters another directory is what stood there**, or is missing as
before. -/
theorem SameOutside.open?_eq (h : SameOutside t t' (t.home ++ [name])) (hp : Path.Enters path part)
    (hne : part ≠ name) : (t'.open? path).map Node.shape = (t.open? path).map Node.shape := by
  obtain ⟨hfind, hshape⟩ := h.find_eq hp hne
  rw [map_shape_open?, map_shape_open?, hfind]
  cases hl : t.find path with
  | error e => rfl
  | ok l =>
    dsimp only [Except.bind]
    rw [hshape l hl]

end FileTree

end TrackCatalog
