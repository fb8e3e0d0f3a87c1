import TrackCatalog.Files.Tree

/-!
# What a change does to a tree

A tree is looked at location by location: at each stands nothing, a file with its bytes, or a
directory (`FileTree.shape?`). Two trees that look alike differ at most in the order in which
directories list what they hold. In this view each change of a tree is a change at one location.

* `shape?_putDir`, `shape?_putFile`, `shape?_erase`: what each change does to the view.
* `shape?_parent`: only directories hold anything.
* `isName_of_shape?`, `length_le_maxFile`: what the soundness of a tree says in the view.
* `mem_names_iff`, `nodup_names`: what a directory lists.
-/

namespace TrackCatalog

/-- What stands at a location, without what is below it. -/
inductive Shape where
  | file (bytes : Bytes)
  | dir
  deriving DecidableEq

/-- The file or directory, without what is below it. -/
def Node.shape : Node → Shape
  | .file bytes => .file bytes
  | .dir _ => .dir

/-- Nothing can be found below it. -/
def Node.IsLeaf (n : Option Node) : Prop := ∀ name l, (n.bind fun n => n.below? (name :: l)) = none

namespace Node

@[simp] theorem below?_nil (n : Node) : n.below? [] = some n := by cases n <;> rfl

@[simp] theorem below?_dir_cons (held : Contents) (name : String) (l : Location) :
    (dir held).below? (name :: l) = (held.lookup name).bind fun n => n.below? l := rfl

@[simp] theorem below?_file_cons (bytes : Bytes) (name : String) (l : Location) :
    (file bytes).below? (name :: l) = none := rfl

theorem below?_append (n : Node) (l m : Location) :
    n.below? (l ++ m) = (n.below? l).bind fun n => n.below? m := by
  induction l generalizing n with
  | nil => simp
  | cons name l ih =>
    cases n with
    | file bytes => simp
    | dir held =>
      rw [List.cons_append, below?_dir_cons, below?_dir_cons]
      cases held.lookup name with
      | none => rfl
      | some n => exact ih n

theorem isLeaf_none : IsLeaf none := fun _ _ => rfl

theorem isLeaf_file (bytes : Bytes) : IsLeaf (some (.file bytes)) := fun _ _ => rfl

theorem isLeaf_empty : IsLeaf (some (.dir [])) := fun _ _ => rfl

/-- What is below something sound is sound. -/
theorem Sound.below? {n n' : Node} {l : Location} (hn : n.Sound) (h : n.below? l = some n') :
    n'.Sound := by
  induction l generalizing n with
  | nil =>
    obtain rfl : n = n' := by simpa using h
    exact hn
  | cons name l ih =>
    cases n with
    | file bytes => simp at h
    | dir held =>
      rw [below?_dir_cons, Option.bind_eq_some_iff] at h
      obtain ⟨m, hm, hl⟩ := h
      obtain ⟨l₁, l₂, hh, -⟩ := List.lookup_eq_some_iff.1 hm
      exact ih (Contents.Sound.below hn (e := (name, m)) (by simp [hh])) hl

end Node

namespace Contents

variable {held : Contents} {name : String}

theorem lookup_mapNodes (held : Contents) (f : String × Node → Node) (k : String) :
    (held.map fun e => (e.1, f e)).lookup k = (held.lookup k).map fun n => f (k, n) := by
  induction held with
  | nil => rfl
  | cons e held ih =>
    rw [List.map_cons, List.lookup_cons, List.lookup_cons, ih]
    cases hk : k == e.1 with
    | false => rfl
    | true => rw [eq_of_beq hk]; rfl

theorem lookup_remove (held : Contents) (name k : String) :
    (held.remove name).lookup k = if k = name then none else held.lookup k := by
  unfold remove
  induction held with
  | nil => simp
  | cons e held ih =>
    rw [List.filter_cons]
    by_cases he : e.1 = name
    · rw [if_neg (by simpa using he), ih, List.lookup_cons]
      by_cases hk : k = name
      · simp [hk]
      · have : (k == e.1) = false := beq_false_of_ne (by rw [he]; exact hk)
        simp [hk, this]
    · rw [if_pos (by simpa using he), List.lookup_cons, List.lookup_cons, ih]
      cases hk : k == e.1 with
      | false => rfl
      | true =>
        obtain rfl := eq_of_beq hk
        simp [he]

theorem lookup_concat (held : Contents) (n : Node) (free : held.lookup name = none) (k : String) :
    (held ++ [(name, n)]).lookup k = if k = name then some n else held.lookup k := by
  rw [List.lookup_append, List.lookup_cons, List.lookup_nil]
  by_cases hk : k = name
  · simp [hk, free]
  · simp [hk, beq_false_of_ne hk]

theorem lookup_putDir (hname : IsName name) (free : held.lookup name = none) (k : String) :
    (held.putDir name).lookup k = if k = name then some (.dir []) else held.lookup k := by
  rw [putDir, if_pos ⟨hname, Option.isNone_iff_eq_none.2 free⟩]
  exact lookup_concat held _ free k

theorem lookup_putFile {bytes : Bytes} (hname : IsName name) (hsize : bytes.length ≤ maxFile)
    (hf : ∀ below, held.lookup name ≠ some (.dir below)) (k : String) :
    (held.putFile bytes name).lookup k =
      if k = name then some (.file bytes) else held.lookup k := by
  rw [putFile, if_pos ⟨hname, hsize⟩]
  split
  · next free => exact lookup_concat held _ free k
  · next old hold =>
    rw [lookup_mapNodes]
    by_cases hk : k = name
    · simp [hk, hold]
    · simp [hk]
  · next below hb => exact absurd hb (hf below)

theorem lookup_update_cons (change : Contents → Contents) (l : Location) (held : Contents)
    (k : String) :
    (held.update change (name :: l)).lookup k =
      (held.lookup k).map fun
        | .dir below => .dir (if k = name then update change l below else below)
        | .file bytes => .file bytes := by
  rw [update_cons]
  refine (lookup_mapNodes held _ k).trans ?_
  rcases held.lookup k with _ | _ | _ <;> rfl

/-- Below the directory that is changed stands what stands in the changed directory. -/
theorem below?_update_append {change : Contents → Contents} {d : Location} {inner : Contents}
    (h : (Node.dir held).below? d = some (.dir inner)) (m : Location) :
    (Node.dir (held.update change d)).below? (d ++ m) = (Node.dir (change inner)).below? m := by
  induction d generalizing held with
  | nil =>
    obtain rfl : held = inner := by simpa using h
    rfl
  | cons name d ih =>
    rw [Node.below?_dir_cons, Option.bind_eq_some_iff] at h
    obtain ⟨n, hn, hd⟩ := h
    rw [List.cons_append, Node.below?_dir_cons, lookup_update_cons, hn]
    cases n with
    | file bytes => cases d <;> simp at hd
    | dir below => simpa using ih hd

/-- Elsewhere nothing looks different. -/
theorem shape_below?_update {change : Contents → Contents} {d m : Location} (h : ¬ d <+: m) :
    ((Node.dir (held.update change d)).below? m).map Node.shape =
      ((Node.dir held).below? m).map Node.shape := by
  induction d generalizing held m with
  | nil => exact absurd (List.nil_prefix) h
  | cons name d ih =>
    cases m with
    | nil => simp [Node.shape]
    | cons k m =>
      rw [Node.below?_dir_cons, Node.below?_dir_cons, lookup_update_cons]
      cases held.lookup k with
      | none => rfl
      | some n =>
        cases n with
        | file bytes => rfl
        | dir below =>
          by_cases hk : k = name
          · -- the walk is still on the way to the directory, and leaves it further down
            have hd : ¬ d <+: m := fun hp => h (by rw [hk]; exact List.cons_prefix_cons.2 ⟨rfl, hp⟩)
            simpa [hk] using ih hd
          · simp [hk]

end Contents

namespace FileTree

variable {t : FileTree} {d l m : Location} {name : String} {bytes : Bytes}

/-- What stands at a location, without what is below it. -/
def shape? (t : FileTree) (l : Location) : Option Shape := (t.node? l).map Node.shape

/-- At the location stands a directory. -/
def IsDir (t : FileTree) (l : Location) : Prop := t.shape? l = some .dir

/-- At the location stands a file with these bytes. -/
def IsFile (t : FileTree) (l : Location) (bytes : Bytes) : Prop := t.shape? l = some (.file bytes)

theorem isDir_iff : t.IsDir l ↔ ∃ held, t.node? l = some (.dir held) := by
  unfold IsDir shape?
  rcases t.node? l with _ | _ | _ <;> simp [Node.shape]

theorem isFile_iff : t.IsFile l bytes ↔ t.node? l = some (.file bytes) := by
  unfold IsFile shape?
  rcases t.node? l with _ | _ | _ <;> simp [Node.shape]

theorem shape?_eq_none_iff : t.shape? l = none ↔ t.node? l = none := by simp [shape?]

theorem IsDir.shape?_ne_none (h : t.IsDir l) : t.shape? l ≠ none := by
  rw [IsDir] at h
  simp [h]

theorem IsFile.shape?_ne_none (h : t.IsFile l bytes) : t.shape? l ≠ none := by
  rw [IsFile] at h
  simp [h]

theorem IsFile.not_isDir (h : t.IsFile l bytes) : ¬ t.IsDir l := by
  intro hd
  rw [IsDir, h] at hd
  simp at hd

theorem isDir_root (t : FileTree) : t.IsDir [] := isDir_iff.2 ⟨t.contents, by simp [node?]⟩

theorem node?_concat (t : FileTree) (l : Location) (name : String) :
    t.node? (l ++ [name]) =
      match t.node? l with
      | some (.dir held) => held.lookup name
      | _ => none := by
  unfold node?
  rw [Node.below?_append]
  cases (Node.dir t.contents).below? l with
  | none => rfl
  | some n => cases n <;> simp

/-- Only directories hold anything. -/
theorem shape?_parent (h : t.shape? (l ++ [name]) ≠ none) : t.IsDir l := by
  rw [ne_eq, shape?_eq_none_iff, node?_concat] at h
  rw [isDir_iff]
  split at h
  · next held hl => exact ⟨held, hl⟩
  · exact absurd rfl h

/-- What stands in a sound tree is sound. -/
theorem sound_of_node? {n : Node} (h : t.node? l = some n) : n.Sound :=
  Node.Sound.below? t.sound h

/-- Whatever stands below the root has a name that it can have. -/
theorem isName_of_shape? (h : t.shape? (l ++ [name]) ≠ none) : IsName name := by
  obtain ⟨held, hl⟩ := isDir_iff.1 (shape?_parent h)
  rw [ne_eq, shape?_eq_none_iff, node?_concat, hl] at h
  obtain ⟨n, hn⟩ := Option.ne_none_iff_exists'.1 h
  obtain ⟨l₁, l₂, hh, -⟩ := List.lookup_eq_some_iff.1 hn
  exact Contents.Sound.named (sound_of_node? hl) (e := (name, n)) (by simp [hh])

/-- No file is too large. -/
theorem length_le_maxFile (h : t.IsFile l bytes) : bytes.length ≤ maxFile := by
  cases sound_of_node? (isFile_iff.1 h) with
  | file size => exact size

/-- A directory lists what stands in it. -/
theorem mem_names_iff (h : t.IsDir l) : name ∈ t.names l ↔ t.shape? (l ++ [name]) ≠ none := by
  obtain ⟨held, hl⟩ := isDir_iff.1 h
  rw [ne_eq, shape?_eq_none_iff, node?_concat, names, hl]
  dsimp only
  refine ⟨fun hm hn => Contents.not_mem_names_of_lookup hn hm, fun hn => ?_⟩
  obtain ⟨n, hn⟩ := Option.ne_none_iff_exists'.1 hn
  obtain ⟨l₁, l₂, hh, -⟩ := List.lookup_eq_some_iff.1 hn
  simp [hh]

/-- A directory lists nothing twice. -/
theorem nodup_names (t : FileTree) (l : Location) : (t.names l).Nodup := by
  unfold names
  split
  · next held hl => exact Contents.Sound.nodup (sound_of_node? hl)
  · exact .nil

/-- A change in one directory, under one name, with nothing below it before and after. -/
theorem shape?_change {f : String → Contents → Contents}
    {keeps : ∀ name held, Contents.Sound held → (f name held).Sound} {held : Contents}
    {new : Option Node} (hd : t.node? d = some (.dir held)) (hold : Node.IsLeaf (held.lookup name))
    (hnew : Node.IsLeaf new)
    (hf : ∀ k, (f name held).lookup k = if k = name then new else held.lookup k) (m : Location) :
    (t.change (d ++ [name]) f keeps).shape? m =
      if m = d ++ [name] then new.map Node.shape else t.shape? m := by
  have hc : (t.change (d ++ [name]) f keeps).contents = t.contents.update (f name) d := by
    simp [change]
  unfold shape? node?
  rw [hc]
  by_cases hp : d <+: m
  · -- below the directory only the one name counts, and nothing is below that
    obtain ⟨r, rfl⟩ := hp
    rw [Contents.below?_update_append hd, Node.below?_append, ← node?, hd]
    cases r with
    | nil => simp [Node.shape]
    | cons k r =>
      rw [Node.below?_dir_cons, hf, Option.bind_some, Node.below?_dir_cons]
      by_cases hk : k = name
      · subst hk
        cases r with
        | nil => cases new <;> simp
        | cons k' r => simp [hnew k' r, hold k' r]
      · simp [hk]
  · rw [Contents.shape_below?_update hp, if_neg]
    exact fun hm => hp (hm ▸ List.prefix_append _ _)

/-- Where nothing stands a directory can be put. -/
theorem shape?_putDir (hd : t.IsDir d) (hname : IsName name) (free : t.shape? (d ++ [name]) = none)
    (m : Location) :
    (t.putDir (d ++ [name])).shape? m = if m = d ++ [name] then some .dir else t.shape? m := by
  obtain ⟨held, hheld⟩ := isDir_iff.1 hd
  rw [shape?_eq_none_iff, node?_concat, hheld] at free
  dsimp only at free
  exact shape?_change hheld (by rw [free]; exact Node.isLeaf_none) Node.isLeaf_empty
    (Contents.lookup_putDir hname free) m

/-- Where no directory stands a file can be put. -/
theorem shape?_putFile (hd : t.IsDir d) (hname : IsName name) (hsize : bytes.length ≤ maxFile)
    (hf : ¬ t.IsDir (d ++ [name])) (m : Location) :
    (t.putFile (d ++ [name]) bytes).shape? m =
      if m = d ++ [name] then some (.file bytes) else t.shape? m := by
  obtain ⟨held, hheld⟩ := isDir_iff.1 hd
  rw [isDir_iff, node?_concat, hheld] at hf
  dsimp only at hf
  refine shape?_change hheld ?_ (Node.isLeaf_file bytes)
    (Contents.lookup_putFile hname hsize fun below hb => hf ⟨below, hb⟩) m
  rcases hl : held.lookup name with _ | _ | below
  · exact Node.isLeaf_none
  · exact Node.isLeaf_file _
  · exact absurd ⟨below, hl⟩ hf

/-- A file can be taken away. -/
theorem shape?_erase (hf : t.IsFile (d ++ [name]) bytes) (m : Location) :
    (t.erase (d ++ [name])).shape? m = if m = d ++ [name] then none else t.shape? m := by
  obtain ⟨held, hheld⟩ := isDir_iff.1 (shape?_parent hf.shape?_ne_none)
  have hnode := isFile_iff.1 hf
  rw [erase, hnode]
  rw [node?_concat, hheld] at hnode
  dsimp only at hnode
  exact shape?_change hheld (by rw [hnode]; exact Node.isLeaf_file bytes) Node.isLeaf_none
    (Contents.lookup_remove held name) m

@[simp] theorem home_change (f : String → Contents → Contents)
    (keeps : ∀ name held, Contents.Sound held → (f name held).Sound) :
    (t.change l f keeps).home = t.home := by
  unfold change
  split <;> rfl

@[simp] theorem home_erase (t : FileTree) (l : Location) : (t.erase l).home = t.home := by
  unfold erase
  split
  · exact home_change _ _
  · rfl

end FileTree

end TrackCatalog
