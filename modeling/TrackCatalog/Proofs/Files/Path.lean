import TrackCatalog.Files.Path
import TrackCatalog.Files.Tree
import TrackCatalog.Proofs.Text.Lines

/-!
# The parts of a joined path

What is joined to a directory follows the parts that lead to the directory (`Path.leading`); a name
becomes the last part.

* `Path.parts_join_of_relative`, `Path.parts_join`: the parts of a joined path.
* `Path.nameable_parts`: a part that is no step in place or up can be the name of something.
-/

namespace TrackCatalog

namespace Path

variable {dir name path part : String}

theorem mem_of_mem_parts {c : Char} (hp : part ∈ parts path) (hc : c ∈ part.toList) :
    c ∈ path.toList ∧ c ≠ '/' := by
  obtain ⟨p, hm, rfl⟩ := List.mem_map.1 hp
  rw [String.toList_ofList] at hc
  exact Text.mem_of_mem_splitOn hm hc

/-- A part of a path without a null character is a step in place or up, is too long, or is a name. -/
theorem isName_of_mem_parts (hp : part ∈ parts path) (hnul : '\x00' ∉ path.toList)
    (hs : part ∉ ["", ".", ".."]) (hl : part.utf8ByteSize ≤ maxName) : IsName part :=
  ⟨hs, fun hc => (mem_of_mem_parts hp hc).2 rfl, fun hc => hnul (mem_of_mem_parts hp hc).1, hl⟩

/-- Each part is a step in place or up, or is too long, or can be the name of something. -/
def Nameable (parts : List String) : Prop :=
  ∀ part ∈ parts, part ∉ ["", ".", ".."] → part.utf8ByteSize ≤ maxName → IsName part

theorem nameable_parts (hnul : '\x00' ∉ path.toList) : Nameable (parts path) :=
  fun _ hp hs hl => isName_of_mem_parts hp hnul hs hl

theorem parts_ne_nil (path : String) : parts path ≠ [] := by simp [parts, List.splitOn_ne_nil]

/-- Parts before a slash, then those after it. -/
theorem parts_append_slash {xs ys : List Char} (h : path.toList = xs ++ '/' :: ys) :
    parts path = parts (.ofList xs) ++ parts (.ofList ys) := by
  simp [parts, h, List.splitOn_append_cons_self]

theorem parts_of_not_mem (h : '/' ∉ name.toList) : parts name = [name] := by
  simp [parts, List.splitOn_eq_singleton h]

/-- A text that can stand as a part of its own: not empty, and without a slash. -/
def IsPart (name : String) : Prop := name ≠ "" ∧ '/' ∉ name.toList

theorem IsPart.of_isName (h : IsName name) : IsPart name :=
  ⟨fun e => h.1 (by simp [e]), h.2.1⟩

/-- The parts that lead to a directory, as far as a name joined to it is concerned. -/
def leading (dir : String) : List String :=
  if dir = "" then [] else if hasTrailingSlash dir then (parts dir).dropLast else parts dir

theorem leading_subset (hp : part ∈ leading dir) : part ∈ parts dir := by
  unfold leading at hp
  split at hp
  · simp at hp
  · split at hp
    · exact (List.dropLast_sublist _).subset hp
    · exact hp

theorem IsPart.toList_ne_nil (h : IsPart name) : name.toList ≠ [] := by
  simpa [String.toList_eq_nil_iff] using h.1

theorem IsPart.not_isAbsolute (h : IsPart name) : isAbsolute name = false := by
  rw [isAbsolute, decide_eq_false_iff_not]
  exact fun hh => h.2 (List.mem_of_head? hh)

theorem exists_of_hasTrailingSlash (h : hasTrailingSlash dir) :
    ∃ xs, dir.toList = xs ++ ['/'] := by
  rw [hasTrailingSlash, decide_eq_true_iff, List.getLast?_eq_some_iff] at h
  exact h

theorem join_eq (h : isAbsolute path = false) :
    join dir path = if dir = "" then path else if hasTrailingSlash dir then dir ++ path
      else dir ++ "/" ++ path := by
  unfold join
  rw [h]
  by_cases hd : dir = ""
  · simp [hd]
  · simp [hd, hasTrailingSlash, String.isEmpty_iff]

/-- **The parts of a joined path.** -/
theorem parts_join_of_relative (h : isAbsolute path = false) :
    parts (join dir path) = leading dir ++ parts path := by
  rw [join_eq h, leading]
  split
  · rw [List.nil_append]
  · split
    · next hs =>
      obtain ⟨xs, hxs⟩ := exists_of_hasTrailingSlash hs
      have hd := parts_append_slash hxs
      have hj : (dir ++ path).toList = xs ++ '/' :: path.toList := by simp [hxs]
      -- the slash at the end adds an empty part, which the path takes the place of
      have hnil : parts (.ofList []) = [""] := parts_of_not_mem (by simp)
      rw [parts_append_slash hj, hd, hnil, String.ofList_toList, List.dropLast_concat]
    · have hj : (dir ++ "/" ++ path).toList = dir.toList ++ '/' :: path.toList := by simp
      rw [parts_append_slash hj, String.ofList_toList, String.ofList_toList]

/-- The parts of a path with a name joined to it. -/
theorem parts_join (h : IsPart name) : parts (join dir name) = leading dir ++ [name] := by
  rw [parts_join_of_relative h.not_isAbsolute, parts_of_not_mem h.2]

theorem isAbsolute_join (h : IsPart name) : isAbsolute (join dir name) = isAbsolute dir := by
  rw [join_eq h.not_isAbsolute]
  split
  · next hd => rw [hd, h.not_isAbsolute]; rfl
  · next hd =>
    have hne : dir.toList ≠ [] := by simpa [String.toList_eq_nil_iff] using hd
    obtain ⟨c, cs, hc⟩ := List.exists_cons_of_ne_nil hne
    split <;> simp [isAbsolute, hc]

theorem toList_join (dir : String) (h : IsPart name) :
    ∃ xs, (join dir name).toList = xs ++ name.toList := by
  rw [join_eq h.not_isAbsolute]
  split
  · exact ⟨[], rfl⟩
  · split
    · exact ⟨dir.toList, by simp⟩
    · exact ⟨dir.toList ++ ['/'], by simp⟩

theorem hasTrailingSlash_join (h : IsPart name) : hasTrailingSlash (join dir name) = false := by
  obtain ⟨xs, hxs⟩ := toList_join dir h
  have hlast := List.getLast?_eq_some_getLast h.toList_ne_nil
  rw [hasTrailingSlash, hxs, decide_eq_false_iff_not, List.getLast?_append, hlast, Option.some_or,
    ← hlast]
  exact fun hh => h.2 (List.mem_of_getLast? hh)

theorem leading_join (h : IsPart name) : leading (join dir name) = leading dir ++ [name] := by
  have hne : join dir name ≠ "" := by
    intro he
    obtain ⟨xs, hxs⟩ := toList_join dir h
    rw [he] at hxs
    exact h.toList_ne_nil (List.append_eq_nil_iff.1 hxs.symm).2
  rw [leading, if_neg hne, hasTrailingSlash_join h, if_neg (by simp), parts_join h]

/-- A path without a slash at its end is left as it is. -/
theorem withoutTrailingSlashes_of_not (h : hasTrailingSlash path = false) :
    withoutTrailingSlashes path = path := by
  rw [hasTrailingSlash, decide_eq_false_iff_not] at h
  have : path.toList.reverse.dropWhile (· = '/') = path.toList.reverse := by
    rcases hr : path.toList.reverse with _ | ⟨c, cs⟩
    · rfl
    · have hc : c ≠ '/' := by
        rintro rfl
        apply h
        rw [← List.head?_reverse, hr]
        rfl
      rw [List.dropWhile_cons_of_neg (by simpa using hc)]
  rw [withoutTrailingSlashes, this, List.reverse_reverse, String.ofList_toList]

end Path

end TrackCatalog
