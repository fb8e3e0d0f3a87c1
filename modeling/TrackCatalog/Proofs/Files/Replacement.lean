import TrackCatalog.Proofs.Files.Directories

/-!
# Replacing a file step by step

`FileTree.replaceFile` puts a file in place at once. On a disk this takes steps: an empty file with
a fresh name is created in the directory, it is filled, and it is moved to its place; when a step
is refused the file is taken away again. Here both are compared, and the fresh name is never left
behind.

* `FileTree.replaceInSteps`: the steps.
* `FileTree.IsFresh`: a name that may be taken for the prepared file.
* `target_of_changedAt`: a prepared file is in nobody's way.
* `replaceInSteps_agrees`: the steps end as the replacement at once does.
-/

namespace TrackCatalog.FileTree

variable {t t' u : FileTree} {l m d : Location} {path dir temp part : String}
  {parts : List String} {bytes : Bytes} {new new' : Option Shape}

/-! ## The steps -/

/-- Creates an empty file in a directory and tells where. -/
def prepare (t : FileTree) (dir temp : String) : Except FileFault (FileTree × Location) :=
  (t.preparedDir dir).map fun d => (t.putFile (d ++ [temp]) [], d ++ [temp])

/-- Fills a file, unless the bytes are more than any file holds. -/
def fill (t : FileTree) (l : Location) (bytes : Bytes) : Except FileFault FileTree :=
  if maxFile < bytes.length then .error .invalidArgument else .ok (t.putFile l bytes)

/-- Moves a file to the place that a path leads to. -/
def moveFile (t : FileTree) (l : Location) (path : String) : Except FileFault FileTree :=
  match t.target path, t.node? l with
  | .error e, _ => .error e
  | .ok m, some (.file bytes) => .ok ((t.erase l).putFile m bytes)
  | .ok _, _ => .error .notFound

/-- Prepares a file, fills it and moves it to its place. The prepared file goes when the rest is
refused. -/
def replaceInSteps (t : FileTree) (temp path : String) (bytes : Bytes) :
    FileTree × Except (String × FileFault) Unit :=
  match t.prepare (workDir path) temp with
  | .error e => (t, .error (workDir path, e))
  | .ok (prepared, l) =>
    match prepared.fill l bytes with
    | .error e => (prepared.erase l, .error (t.preparedPath (workDir path), e))
    | .ok filled =>
      match filled.moveFile l path with
      | .error e => (filled.erase l, .error (path, e))
      | .ok moved => (moved, .ok ())

/-- The name can be given to a file that is prepared for a path: it is nowhere on the path, nor on
the way to the tree's home, and it is free in the directory. -/
structure IsFresh (t : FileTree) (temp path : String) : Prop where
  name : IsName temp
  apart : temp ∉ Path.parts path
  home : temp ∉ t.home
  free : ∀ d, t.directory (workDir path) = .ok d → t.shape? (d ++ [temp]) = none

/-- The same stands at every location of both trees. -/
structure Alike (t t' : FileTree) : Prop where
  home : t'.home = t.home
  shape : ∀ m, t'.shape? m = t.shape? m

/-- The steps have the answer of the replacement at once, in trees that are alike. After a refusal
that is the tree they began with. -/
inductive EndsAlike (t : FileTree) :
    Except (String × FileFault) FileTree → FileTree × Except (String × FileFault) Unit → Prop
  | refused {u : FileTree} {e : String × FileFault} :
    Alike t u → EndsAlike t (.error e) (u, .error e)
  | done {t' u : FileTree} : Alike t' u → EndsAlike t (.ok t') (u, .ok ())

/-! ## A file that nobody asks for -/

theorem ChangedAt.trans (h : ChangedAt t u l new) (h' : ChangedAt u t' l new') :
    ChangedAt t t' l new' := by
  refine ⟨h'.home.trans h.home, fun m => ?_⟩
  by_cases hm : m = l
  · subst hm
    rw [if_pos rfl]
    exact h'.shape_self
  · rw [if_neg hm, h'.shape_of_ne hm, h.shape_of_ne hm]

/-- Taking a new file away again leaves what was there. -/
theorem alike_erase (hfree : t.shape? (d ++ [temp]) = none)
    (hc : ChangedAt t u (d ++ [temp]) (some (.file bytes))) : Alike t (u.erase (d ++ [temp])) := by
  refine ⟨(home_erase _ _).trans hc.home, fun m => ?_⟩
  have hf : u.IsFile (d ++ [temp]) bytes := hc.shape_self
  rw [shape?_erase hf]
  by_cases hm : m = d ++ [temp]
  · rw [if_pos hm, hm, hfree]
  · rw [if_neg hm, hc.shape_of_ne hm]

/-- A walk that does not mention a free name never comes to it, and does not see what is put
there. -/
theorem locate_of_changedAt (hfree : t.shape? (d ++ [temp]) = none)
    (hc : ChangedAt t u (d ++ [temp]) new) (hparts : temp ∉ parts) (hl : l ≠ d ++ [temp]) :
    u.locate l parts = t.locate l parts ∧
      ∀ m, t.locate l parts = .ok m → m ≠ d ++ [temp] := by
  induction parts generalizing l with
  | nil =>
    refine ⟨rfl, fun m hm => ?_⟩
    cases hm
    exact hl
  | cons part parts ih =>
    have hstep : u.step l part = t.step l part := by
      unfold step
      rw [hc.shape_of_ne hl]
    rw [locate_cons, locate_cons, hstep]
    cases hk : t.step l part with
    | error e => exact ⟨rfl, fun m hm => by cases hm⟩
    | ok k =>
      -- one step leads to the name only by the name, or up from below it
      have hne : k ≠ d ++ [temp] := by
        rintro rfl
        obtain ⟨hd, ⟨-, he⟩ | ⟨-, he⟩ | ⟨-, -, he⟩⟩ := step_eq_ok.1 hk
        · exact hl he.symm
        · rcases List.eq_nil_or_concat l with rfl | ⟨k, name, rfl⟩
          · simp at he
          · rw [List.concat_eq_append] at hd he
            rw [List.dropLast_concat] at he
            subst he
            exact (shape?_parent hd.shape?_ne_none).shape?_ne_none hfree
        · have hlast := (List.append_inj' he rfl).2
          rw [List.singleton_inj] at hlast
          exact hparts (hlast ▸ List.mem_cons_self)
      exact ih (fun hm => hparts (List.mem_cons_of_mem _ hm)) hne

/-- The place that a moved file takes, found from location to location. -/
theorem target_eq (t : FileTree) (path : String) :
    t.target path =
      match pathFault? path with
      | some .invalidName => .error .invalidArgument
      | some e => .error e
      | none =>
        match (Path.parts (Path.withoutTrailingSlashes path)).reverse with
        | [] => .error .busy
        | last :: above =>
          match t.locate (t.origin (Path.isAbsolute path)) (above.reverse ++ [""]) with
          | .error e => .error e
          | .ok m =>
            if last = "" ∨ last = "." ∨ last = ".." then .error .busy
            else if maxName < last.utf8ByteSize then .error .nameTooLong
            else if Path.hasTrailingSlash path then .error .notADirectory
            else
              match t.shape? (m ++ [last]) with
              | some .dir => .error .isADirectory
              | _ => .ok (m ++ [last]) := by
  unfold target
  rcases pathFault? path with _ | e
  · dsimp only
    rcases (Path.parts (Path.withoutTrailingSlashes path)).reverse with _ | ⟨last, above⟩
    · rfl
    · dsimp only
      rw [start_eq, walk_placeAt]
      rcases t.locate (t.origin (Path.isAbsolute path)) (above.reverse ++ [""]) with e | m
      · rfl
      · simp only [Except.map, ← placeAt_concat, here_placeAt, location_placeAt]
        unfold shape?
        rcases t.node? (m ++ [last]) with _ | _ | _ <;> rfl
  · cases e <;> rfl

/-- **A prepared file is in nobody's way**: the place of the final one is found as before, and it is
another. -/
theorem target_of_changedAt (h : t.IsFresh temp path) (hfree : t.shape? (d ++ [temp]) = none)
    (hc : ChangedAt t u (d ++ [temp]) new) :
    u.target path = t.target path ∧ ∀ m, t.target path = .ok m → m ≠ d ++ [temp] := by
  have horigin : t.origin (Path.isAbsolute path) ≠ d ++ [temp] := by
    unfold origin
    intro he
    split at he
    · simp at he
    · exact h.home (by simp [he])
  have horigin' : u.origin (Path.isAbsolute path) = t.origin (Path.isAbsolute path) := by
    unfold origin
    rw [hc.home]
  have hsub := (Path.parts_withoutTrailingSlashes_prefix path).subset
  rw [target_eq, target_eq, horigin']
  rcases pathFault? path with _ | e
  · dsimp only
    cases hparts : (Path.parts (Path.withoutTrailingSlashes path)).reverse with
    | nil => exact ⟨rfl, fun m hm => by cases hm⟩
    | cons last above =>
      dsimp only
      have hmem : ∀ p ∈ last :: above, p ∈ Path.parts path := by
        intro p hp
        rw [← hparts, List.mem_reverse] at hp
        exact hsub hp
      have hlast : last ≠ temp := fun he => h.apart (he ▸ hmem last List.mem_cons_self)
      have habove : temp ∉ above.reverse ++ [""] := by
        rw [List.mem_append, List.mem_reverse, List.mem_singleton]
        rintro (hm | he)
        · exact h.apart (hmem _ (List.mem_cons_of_mem _ hm))
        · exact h.name.1 (by simp [he])
      obtain ⟨hlocate, -⟩ := locate_of_changedAt hfree hc habove horigin
      rw [hlocate]
      rcases t.locate (t.origin (Path.isAbsolute path)) (above.reverse ++ [""]) with e | k
      · exact ⟨rfl, fun m hm => by cases hm⟩
      · dsimp only
        have hne : k ++ [last] ≠ d ++ [temp] := by
          intro he
          have hl := (List.append_inj' he rfl).2
          rw [List.singleton_inj] at hl
          exact hlast hl
        rw [hc.shape_of_ne hne]
        refine ⟨rfl, fun m hm => ?_⟩
        split at hm
        · cases hm
        · split at hm
          · cases hm
          · split at hm
            · cases hm
            · split at hm
              · cases hm
              · cases hm
                exact hne
  · cases e <;> exact ⟨rfl, fun m hm => by cases hm⟩

/-! ## The steps together -/

theorem Alike.putFile (h : Alike t t') (hd : t.IsDir d) (hn : IsName temp)
    (hsize : bytes.length ≤ maxFile) (hf : ¬ t.IsDir (d ++ [temp])) :
    Alike (t.putFile (d ++ [temp]) bytes) (t'.putFile (d ++ [temp]) bytes) := by
  have hd' : t'.IsDir d := by
    unfold IsDir
    rw [h.shape]
    exact hd
  have hf' : ¬ t'.IsDir (d ++ [temp]) := by
    unfold IsDir
    rw [h.shape]
    exact hf
  refine ⟨?_, fun m => ?_⟩
  · exact (home_change _ _).trans (h.home.trans (home_change _ _).symm)
  · rw [shape?_putFile hd hn hsize hf, shape?_putFile hd' hn hsize hf', h.shape]

theorem changedAt_created (hd : t.IsDir d) (hn : IsName temp)
    (hfree : t.shape? (d ++ [temp]) = none) :
    ChangedAt t (t.putFile (d ++ [temp]) []) (d ++ [temp]) (some (.file [])) :=
  ⟨home_change _ _, shape?_putFile hd hn (Nat.zero_le _) fun hdir => hdir.shape?_ne_none hfree⟩

theorem changedAt_filled (hd : t.IsDir d) (hn : IsName temp) (hsize : bytes.length ≤ maxFile)
    (hfree : t.shape? (d ++ [temp]) = none) :
    ChangedAt t ((t.putFile (d ++ [temp]) []).putFile (d ++ [temp]) bytes) (d ++ [temp])
      (some (.file bytes)) := by
  have hnot : ¬ t.IsDir (d ++ [temp]) := fun hdir => hdir.shape?_ne_none hfree
  have hcreated := changedAt_created hd hn hfree
  have hd' := (hcreated.keepsDirs hnot).isDir d hd
  have hfile : (t.putFile (d ++ [temp]) []).IsFile (d ++ [temp]) [] := hcreated.shape_self
  exact hcreated.trans ⟨home_change _ _, shape?_putFile hd' hn hsize hfile.not_isDir⟩

/-- **A filled file is moved as if it were put in place at once**, and when the move is refused the
file can be taken away again. -/
theorem moveFile_agrees (h : t.IsFresh temp path) (hsize : bytes.length ≤ maxFile)
    (hfree : t.shape? (d ++ [temp]) = none)
    (hc : ChangedAt t u (d ++ [temp]) (some (.file bytes))) :
    match t.target path with
    | .error e => u.moveFile (d ++ [temp]) path = .error e
    | .ok m => ∃ moved, u.moveFile (d ++ [temp]) path = .ok moved ∧ Alike (t.putFile m bytes) moved := by
  obtain ⟨htarget, -⟩ := target_of_changedAt h hfree hc
  unfold moveFile
  rw [htarget]
  cases hm : t.target path with
  | error e => rfl
  | ok m =>
    have hnode : u.node? (d ++ [temp]) = some (.file bytes) := isFile_iff.1 hc.shape_self
    rw [hnode]
    obtain ⟨k, name, rfl, -, hk, hn, hnd⟩ := target_eq_ok hm
    exact ⟨_, rfl, (alike_erase hfree hc).putFile hk hn hsize hnd⟩

theorem directory_of_preparedDir (h : t.preparedDir dir = .ok d) : t.directory dir = .ok d := by
  unfold preparedDir at h
  split at h
  · cases h
  · exact h

/-- **The steps end as the replacement at once does.** Either the file is in place, or the
replacement is refused for the same reason and nothing is left of it. -/
theorem replaceInSteps_agrees (h : t.IsFresh temp path) (bytes : Bytes) :
    EndsAlike t (t.replaceFile path bytes) (t.replaceInSteps temp path bytes) := by
  unfold replaceFile replaceInSteps prepare
  cases hprep : t.preparedDir (workDir path) with
  | error e => exact .refused ⟨rfl, fun _ => rfl⟩
  | ok d =>
    have hdir := directory_of_preparedDir hprep
    have hd := (directory_eq_ok.1 hdir).2
    have hfree := h.free d hdir
    simp only [Except.map, fill]
    by_cases hsize : maxFile < bytes.length
    · rw [if_pos hsize, if_pos hsize]
      exact .refused (alike_erase hfree (changedAt_created hd h.name hfree))
    · rw [if_neg hsize, if_neg hsize]
      have hle := Nat.not_lt.1 hsize
      have hfilled := changedAt_filled hd h.name hle hfree
      have hmove := moveFile_agrees h hle hfree hfilled
      dsimp only
      generalize (t.putFile (d ++ [temp]) []).putFile (d ++ [temp]) bytes = filled at hfilled hmove
      cases htarget : t.target path with
      | error e =>
        rw [htarget] at hmove
        dsimp only at hmove
        rw [hmove]
        exact .refused (alike_erase hfree hfilled)
      | ok m =>
        rw [htarget] at hmove
        obtain ⟨moved, he, hsame⟩ := hmove
        rw [he]
        exact .done hsame

end TrackCatalog.FileTree
