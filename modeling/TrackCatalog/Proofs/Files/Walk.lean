import TrackCatalog.Files.Access
import TrackCatalog.Proofs.Files.Path
import TrackCatalog.Proofs.Files.View
import TrackCatalog.Proofs.Outcome

/-!
# Where paths lead

A walk through a tree remembers the directories that it left. Here the same walk is made from
location to location, asking only what stands at each (`FileTree.locate`), and every operation on
paths is put in these terms.

* `resolve_eq`: both walks arrive at the same place, or are refused for the same reason.
* `locate_mono`: a walk arrives at the same location as long as no directory is taken away.
* `prefix_of_locate`, `parent_of_locate`: where a walk can end.
-/

namespace TrackCatalog

namespace Place

theorem here_enter (p : Place) (name : String) :
    (p.enter name).here = p.here.bind fun n => n.below? [name] := by
  obtain ⟨here, back⟩ := p
  rcases here with _ | _ | held
  · rfl
  · rfl
  · simp [enter]

theorem here_foldl_enter (p : Place) (l : Location) :
    (l.foldl enter p).here = p.here.bind fun n => n.below? l := by
  induction l generalizing p with
  | nil => simp
  | cons name l ih =>
    rw [List.foldl_cons, ih, here_enter, Option.bind_assoc]
    congr 1
    funext n
    exact (n.below?_append [name] l).symm

theorem location_foldl_enter (p : Place) (l : Location) :
    (l.foldl enter p).location = p.location ++ l := by
  induction l generalizing p with
  | nil => simp
  | cons name l ih =>
    have he : (p.enter name).location = p.location ++ [name] := by
      unfold enter location
      split <;> simp
    rw [List.foldl_cons, ih, he, List.append_assoc, List.singleton_append]

/-- Leaving leads back to the directory that was entered from. -/
theorem leave_enter {p : Place} {held : Contents} (h : p.here = some (.dir held)) (name : String) :
    (p.enter name).leave = p := by
  obtain ⟨here, back⟩ := p
  cases h
  rfl

end Place

namespace FileTree

variable {t t' : FileTree} {l m d : Location} {path part name : String} {parts : List String}

/-- The place at a location, entered from the root. -/
def placeAt (t : FileTree) (l : Location) : Place := l.foldl Place.enter t.root

/-- Where a path starts. -/
def origin (t : FileTree) (fromRoot : Bool) : Location := if fromRoot then [] else t.home

theorem start_eq (t : FileTree) (fromRoot : Bool) :
    t.start fromRoot = t.placeAt (t.origin fromRoot) := by
  cases fromRoot <;> rfl

theorem placeAt_concat (t : FileTree) (l : Location) (name : String) :
    t.placeAt (l ++ [name]) = (t.placeAt l).enter name := by simp [placeAt]

@[simp] theorem here_placeAt (t : FileTree) (l : Location) : (t.placeAt l).here = t.node? l := by
  simp [placeAt, Place.here_foldl_enter, root, node?]

@[simp] theorem location_placeAt (t : FileTree) (l : Location) : (t.placeAt l).location = l := by
  rw [placeAt, Place.location_foldl_enter]
  rfl

/-- Leaving a directory leads to the one that holds it. -/
theorem leave_placeAt (h : t.IsDir l) : (t.placeAt l).leave = t.placeAt l.dropLast := by
  rcases List.eq_nil_or_concat l with rfl | ⟨d, name, rfl⟩
  · rfl
  · rw [List.concat_eq_append] at h
    have hd : t.IsDir d := shape?_parent h.shape?_ne_none
    obtain ⟨held, hheld⟩ := isDir_iff.1 hd
    have hh : (t.placeAt d).here = some (.dir held) := by rw [here_placeAt, hheld]
    rw [List.concat_eq_append, List.dropLast_concat, placeAt_concat]
    exact Place.leave_enter hh name

/-- Follows one part of a path from a location. -/
def step (t : FileTree) (l : Location) (part : String) : Except FileFault Location :=
  match t.shape? l with
  | none => .error .notFound
  | some (.file _) => .error .notADirectory
  | some .dir =>
    if part = "" ∨ part = "." then .ok l
    else if part = ".." then .ok l.dropLast
    else if maxName < part.utf8ByteSize then .error .nameTooLong
    else .ok (l ++ [part])

/-- Follows parts in turn from a location. -/
def locate (t : FileTree) (l : Location) (parts : List String) : Except FileFault Location :=
  parts.foldlM t.step l

theorem locate_cons (t : FileTree) (l : Location) (part : String) (parts : List String) :
    t.locate l (part :: parts) = t.step l part >>= fun m => t.locate m parts := rfl

/-- The location that a path leads to; nothing needs to stand there. -/
def find (t : FileTree) (path : String) : Except FileFault Location :=
  match pathFault? path with
  | some e => .error e
  | none => t.locate (t.origin (Path.isAbsolute path)) (Path.parts path)

theorem follow_placeAt (t : FileTree) (l : Location) (part : String) :
    (t.placeAt l).follow part = (t.step l part).map t.placeAt := by
  unfold Place.follow step
  rw [here_placeAt]
  rcases hn : t.node? l with _ | _ | held
  · simp [shape?, hn, Except.map]
  · simp [shape?, hn, Node.shape, Except.map]
  · have hd : t.IsDir l := isDir_iff.2 ⟨held, hn⟩
    rw [show t.shape? l = some .dir from hd]
    dsimp only
    split
    · rfl
    · split
      · rw [leave_placeAt hd]
        rfl
      · split
        · rfl
        · rw [← placeAt_concat]
          rfl

theorem walk_placeAt (t : FileTree) (l : Location) (parts : List String) :
    (t.placeAt l).walk parts = (t.locate l parts).map t.placeAt := by
  induction parts generalizing l with
  | nil => rfl
  | cons part parts ih =>
    have hw : (t.placeAt l).walk (part :: parts) =
        (t.placeAt l).follow part >>= fun p => p.walk parts := rfl
    rw [hw, locate_cons, follow_placeAt]
    cases t.step l part with
    | error e => rfl
    | ok m => exact ih m

/-- **Both walks arrive at the same place.** -/
theorem resolve_eq (t : FileTree) (path : String) :
    t.resolve path = (t.find path).map t.placeAt := by
  unfold resolve find
  cases pathFault? path with
  | some e => rfl
  | none => rw [start_eq, walk_placeAt]

theorem locate_cons_eq_ok :
    t.locate l (part :: parts) = .ok m ↔ ∃ d, t.step l part = .ok d ∧ t.locate d parts = .ok m :=
  Except.bind_eq_ok_iff (f := fun d => t.locate d parts)

theorem locate_append_eq_ok {parts' : List String} :
    t.locate l (parts ++ parts') = .ok m ↔
      ∃ d, t.locate l parts = .ok d ∧ t.locate d parts' = .ok m := by
  unfold locate
  rw [List.foldlM_append, Except.bind_eq_ok_iff]

theorem locate_singleton : t.locate l [part] = t.step l part := by
  unfold locate
  rw [List.foldlM_cons]
  cases t.step l part <;> rfl

/-- A step is made in a directory: it stays, goes up, or goes down by a name. -/
theorem step_eq_ok :
    t.step l part = .ok m ↔ t.IsDir l ∧
      ((part = "" ∨ part = ".") ∧ m = l ∨ part = ".." ∧ m = l.dropLast ∨
        part ∉ ["", ".", ".."] ∧ part.utf8ByteSize ≤ maxName ∧ m = l ++ [part]) := by
  unfold step IsDir
  rcases t.shape? l with _ | _ | _
  · simp
  · simp
  · by_cases h₁ : part = "" ∨ part = "."
    · rcases h₁ with rfl | rfl <;> simp [eq_comm (a := l)]
    · obtain ⟨hne, hdot⟩ := not_or.1 h₁
      by_cases h₂ : part = ".."
      · simp [h₂, eq_comm (a := m)]
      · by_cases h₃ : maxName < part.utf8ByteSize
        · simp [hne, hdot, h₂, h₃, Nat.not_le.2 h₃]
        · simp [hne, hdot, h₂, h₃, Nat.not_lt.1 h₃, eq_comm (a := m)]

/-- Going down by a name. -/
theorem step_name (hd : t.IsDir l) (hn : IsName name) : t.step l name = .ok (l ++ [name]) :=
  step_eq_ok.2 ⟨hd, .inr (.inr ⟨hn.1, hn.2.2.2, rfl⟩)⟩

/-- **A walk arrives where it did**, as long as no directory is taken away. -/
theorem locate_mono (h : ∀ d, t.IsDir d → t'.IsDir d) (hl : t.locate l parts = .ok m) :
    t'.locate l parts = .ok m := by
  induction parts generalizing l with
  | nil => exact hl
  | cons part parts ih =>
    obtain ⟨d, hs, hr⟩ := locate_cons_eq_ok.1 hl
    obtain ⟨hd, hcase⟩ := step_eq_ok.1 hs
    exact locate_cons_eq_ok.2 ⟨d, step_eq_ok.2 ⟨h l hd, hcase⟩, ih hr⟩

/-- Without steps up, a walk only goes down. -/
theorem prefix_of_locate (hup : ".." ∉ parts) (hl : t.locate l parts = .ok m) : l <+: m := by
  induction parts generalizing l with
  | nil =>
    cases hl
    exact List.prefix_rfl
  | cons part parts ih =>
    obtain ⟨d, hs, hr⟩ := locate_cons_eq_ok.1 hl
    have hrest := ih (fun hm => hup (List.mem_cons_of_mem _ hm)) hr
    obtain ⟨-, ⟨-, rfl⟩ | ⟨rfl, -⟩ | ⟨-, -, rfl⟩⟩ := step_eq_ok.1 hs
    · exact hrest
    · exact absurd List.mem_cons_self hup
    · exact (List.prefix_append _ _).trans hrest

/-- What a walk ends at, unless it is missing, or else the directory that a new name goes to. -/
theorem parent_of_locate (hparts : parts ≠ []) (hname : Path.Nameable parts)
    (hl : t.locate l parts = .ok m) (hm : t.shape? m = none) :
    ∃ d name, m = d ++ [name] ∧ t.IsDir d ∧ IsName name := by
  obtain ⟨init, last, rfl⟩ := (List.eq_nil_or_concat parts).resolve_left hparts
  rw [List.concat_eq_append] at hl hname
  obtain ⟨d, -, hs⟩ := locate_append_eq_ok.1 hl
  rw [locate_singleton] at hs
  obtain ⟨hd, ⟨-, rfl⟩ | ⟨-, rfl⟩ | ⟨hn, hlen, rfl⟩⟩ := step_eq_ok.1 hs
  · exact absurd hm hd.shape?_ne_none
  · -- a step up ends at a directory, so something stands there
    rcases List.eq_nil_or_concat d with rfl | ⟨d', name, rfl⟩
    · exact absurd hm hd.shape?_ne_none
    · rw [List.concat_eq_append] at hm hd
      rw [List.dropLast_concat] at hm
      exact absurd hm (shape?_parent hd.shape?_ne_none).shape?_ne_none
  · exact ⟨d, last, rfl, hd, hname last (by simp) hn hlen⟩

end FileTree

end TrackCatalog
