import TrackCatalog.Bytes

/-!
# File trees

A file tree holds every file and directory below one root. A directory holds its contents by name,
each name once, in the order in which they were put there. The location of a file or directory is
the list of the names that lead to it from the root. Relative paths start at the tree's home.

Names are texts. A file or directory whose name is not UTF-8 cannot be written down, so no tree here
holds one.

* `FileTree.node?`: what stands at a location.
* `FileTree.names`: what a directory holds.
* `FileTree.entries`: everything below the root.
* `IsName`, `maxFile`: what can be the name of something, and the largest file.
* `FileTree.putDir`, `putFile`, `prune`, `erase`: the changes. A change for which there is no place
  leaves the tree as it is. A file that is put where one stands takes its place in the order, so
  putting back what is there changes nothing.
* `Sound.update`: a change of one directory that keeps it sound keeps the whole tree sound.
-/

namespace TrackCatalog

/-- The names that lead from the root to a file or directory. -/
abbrev Location := List String

/-- The path of a location from the root. -/
def Location.path (l : Location) : String := "/" ++ "/".intercalate l

/-- A file, or a directory with what it holds. -/
inductive Node where
  | file (bytes : Bytes)
  | dir (held : List (String × Node))

/-- What a directory holds, by name. -/
abbrev Contents := List (String × Node)

/-- The longest name of a file, in bytes. -/
def maxName : Nat := 255

/-- The size of the largest file, in bytes. -/
def maxFile : Nat := Nat.pow 2 63 - 1

/-- The text can be the name of a file or directory. -/
def IsName (name : String) : Prop :=
  name ∉ ["", ".", ".."] ∧ '/' ∉ name.toList ∧ '\x00' ∉ name.toList ∧ name.utf8ByteSize ≤ maxName

instance (name : String) : Decidable (IsName name) := by
  unfold IsName
  infer_instance

/-- Directories hold what can be named, each name once, and no file is too large. -/
inductive Node.Sound : Node → Prop where
  | file {bytes : Bytes} (size : bytes.length ≤ maxFile) : Sound (.file bytes)
  | dir {held : Contents} (nodup : (held.map Prod.fst).Nodup)
      (named : ∀ e ∈ held, IsName e.1) (below : ∀ e ∈ held, e.2.Sound) : Sound (.dir held)

/-- What stands at a location below a file or directory. -/
def Node.below? : Node → Location → Option Node
  | n, [] => some n
  | .dir held, name :: l => (held.lookup name).bind fun n => n.below? l
  | .file _, _ :: _ => none

mutual

/-- Everything below a file or directory, each at its location, directories before what they
hold. -/
def Node.entries : Node → List (Location × Node)
  | .file _ => []
  | .dir held => Contents.entries held

/-- Everything in a directory and below, each at its location. -/
def Contents.entries : List (String × Node) → List (Location × Node)
  | [] => []
  | (name, n) :: rest =>
    ([name], n) :: (n.entries.map fun e => (name :: e.1, e.2)) ++ Contents.entries rest

end

namespace Contents

/-- The directory with these contents is sound. -/
def Sound (held : Contents) : Prop := (Node.dir held).Sound

/-- Changes the directory at a location below this one. -/
def update (change : Contents → Contents) : Location → Contents → Contents
  | [], held => change held
  | name :: l, held =>
    held.map fun
      | (m, .dir below) => (m, .dir (if m = name then update change l below else below))
      | (m, .file bytes) => (m, .file bytes)

/-- Adds an empty directory under a name that is free. -/
def putDir (name : String) (held : Contents) : Contents :=
  if IsName name ∧ (held.lookup name).isNone then held ++ [(name, .dir [])] else held

/-- Puts a file under a name that is free, or in place of the file there. -/
def putFile (bytes : Bytes) (name : String) (held : Contents) : Contents :=
  if IsName name ∧ bytes.length ≤ maxFile then
    match held.lookup name with
    | none => held ++ [(name, .file bytes)]
    | some (.file _) => held.map fun e => (e.1, if e.1 = name then .file bytes else e.2)
    | some (.dir _) => held
  else held

/-- Takes away what stands under a name. -/
def remove (name : String) (held : Contents) : Contents := held.filter fun e => e.1 ≠ name

theorem not_mem_names_of_lookup {name : String} {held : Contents} (h : held.lookup name = none) :
    name ∉ held.map Prod.fst := by
  intro hm
  obtain ⟨e, he, rfl⟩ := List.mem_map.1 hm
  have := List.lookup_eq_none_iff.1 h e he
  simp at this

theorem Sound.nodup {held : Contents} (h : held.Sound) : (held.map Prod.fst).Nodup := by
  cases h with
  | dir nodup _ _ => exact nodup

theorem Sound.named {held : Contents} (h : held.Sound) {e : String × Node} (he : e ∈ held) :
    IsName e.1 := by
  cases h with
  | dir _ named _ => exact named e he

theorem Sound.below {held : Contents} (h : held.Sound) {e : String × Node} (he : e ∈ held) :
    e.2.Sound := by
  cases h with
  | dir _ _ below => exact below e he

theorem sound_nil : Sound [] := .dir (by simp) (by simp) (by simp)

/-- A free name may be given to anything that is sound. -/
theorem Sound.concat {held : Contents} (h : held.Sound) {name : String} {n : Node}
    (free : held.lookup name = none) (hname : IsName name) (hn : n.Sound) :
    Sound (held ++ [(name, n)]) := by
  refine .dir ?_ ?_ ?_
  · rw [List.map_append, List.nodup_append]
    refine ⟨h.nodup, by simp, ?_⟩
    rintro a ha b hb rfl
    obtain rfl : a = name := by simpa using hb
    exact not_mem_names_of_lookup free ha
  · intro e he
    rcases List.mem_append.1 he with he | he
    · exact h.named he
    · rw [List.mem_singleton.1 he]
      exact hname
  · intro e he
    rcases List.mem_append.1 he with he | he
    · exact h.below he
    · rw [List.mem_singleton.1 he]
      exact hn

/-- What stands under the names may be exchanged, as long as the names stay. -/
theorem Sound.mapNodes {held : Contents} (h : held.Sound) (f : String × Node → Node)
    (hf : ∀ e ∈ held, (f e).Sound) : Sound (held.map fun e => (e.1, f e)) := by
  refine .dir ?_ ?_ ?_
  · rw [List.map_map]
    exact h.nodup
  · intro e he
    obtain ⟨e, hm, rfl⟩ := List.mem_map.1 he
    have hn := h.named hm
    exact hn
  · intro e he
    obtain ⟨e, hm, rfl⟩ := List.mem_map.1 he
    exact hf e hm

theorem Sound.filter {held : Contents} (h : held.Sound) (p : String × Node → Bool) :
    Sound (held.filter p) :=
  .dir (h.nodup.sublist (List.filter_sublist.map _)) (fun _ he => h.named (List.mem_filter.1 he).1)
    fun _ he => h.below (List.mem_filter.1 he).1

theorem update_cons (change : Contents → Contents) (name : String) (l : Location)
    (held : Contents) :
    held.update change (name :: l) = held.map fun e => (e.1,
      match e.2 with
      | .dir below => .dir (if e.1 = name then update change l below else below)
      | .file bytes => .file bytes) := by
  rw [Contents.update]
  apply List.map_congr_left
  rintro ⟨m, n⟩ _
  cases n <;> rfl

theorem Sound.update {change : Contents → Contents}
    (keeps : ∀ held : Contents, held.Sound → (change held).Sound) (l : Location)
    {held : Contents} (h : held.Sound) : (held.update change l).Sound := by
  induction l generalizing held with
  | nil => exact keeps held h
  | cons name l ih =>
    rw [update_cons]
    refine h.mapNodes _ fun e he => ?_
    obtain ⟨m, n⟩ := e
    have hn := h.below he
    cases n with
    | file bytes => exact hn
    | dir below =>
      dsimp only
      split
      · exact ih hn
      · exact hn

theorem Sound.putDir (name : String) {held : Contents} (h : held.Sound) :
    (held.putDir name).Sound := by
  unfold Contents.putDir
  split
  · next free => exact h.concat (Option.isNone_iff_eq_none.1 free.2) free.1 sound_nil
  · exact h

theorem Sound.putFile (bytes : Bytes) (name : String) {held : Contents} (h : held.Sound) :
    (held.putFile bytes name).Sound := by
  unfold Contents.putFile
  split
  · next ok =>
    split
    · next free => exact h.concat free ok.1 (.file ok.2)
    · refine h.mapNodes _ fun e he => ?_
      split
      · exact .file ok.2
      · exact h.below he
    · exact h
  · exact h

theorem Sound.remove (name : String) {held : Contents} (h : held.Sound) :
    (held.remove name).Sound := h.filter _

end Contents

/-- The files and directories below a root. -/
structure FileTree where
  /-- Where relative paths start. -/
  home : Location
  /-- What the root holds. -/
  contents : Contents
  sound : contents.Sound

namespace FileTree

/-- The tree with nothing below its root. -/
def bare (home : Location) : FileTree := ⟨home, [], Contents.sound_nil⟩

/-- The tree with nothing below its root, which is its home. -/
def empty : FileTree := bare []

/-- What stands at a location; at the root stands a directory. -/
def node? (t : FileTree) (l : Location) : Option Node := (Node.dir t.contents).below? l

/-- Everything below the root, each at its location, directories before what they hold. -/
def entries (t : FileTree) : List (Location × Node) := (Node.dir t.contents).entries

/-- The names that stand in a directory. -/
def names (t : FileTree) (l : Location) : List String :=
  match t.node? l with
  | some (.dir held) => held.map Prod.fst
  | _ => []

/-- Changes the directory that holds a location, given the location's last name. -/
def change (t : FileTree) (l : Location) (f : String → Contents → Contents)
    (keeps : ∀ name held, Contents.Sound held → (f name held).Sound) : FileTree :=
  match l.getLast? with
  | none => t
  | some name =>
    { home := t.home
      contents := t.contents.update (f name) l.dropLast
      sound := t.sound.update (keeps name) l.dropLast }

/-- Puts a directory where nothing stands. -/
def putDir (t : FileTree) (l : Location) : FileTree :=
  t.change l Contents.putDir fun name _ h => h.putDir name

/-- Puts a file where no directory stands, new or in place of one. -/
def putFile (t : FileTree) (l : Location) (bytes : Bytes) : FileTree :=
  t.change l (Contents.putFile bytes) fun name _ h => h.putFile bytes name

/-- Takes a location below the root and everything below it away. -/
def prune (t : FileTree) (l : Location) : FileTree :=
  t.change l Contents.remove fun name _ h => h.remove name

/-- Takes the file at a location away, if one stands there. -/
def erase (t : FileTree) (l : Location) : FileTree :=
  match t.node? l with
  | some (.file _) => t.prune l
  | _ => t

end FileTree

end TrackCatalog
