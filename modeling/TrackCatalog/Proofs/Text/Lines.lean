import TrackCatalog.Text.Lines

/-!
# Lines and line feeds

Cutting a text at its line feeds gives its lines, but for two things: a carriage return before a
line feed is kept, and behind the last line feed there is one more piece, empty or not.

* `mem_of_mem_splitOn`: what a piece is made of.
* `lines_append_cons`: the first line of a text, without its ending.
* `HasLines`, `hasLines_iff`: the lines of a text, by how they end.
* `not_mem_of_mem_lines`: no line holds a line feed.
* `eq_chomp_or`: taking the ending off a line takes at most a carriage return besides.
* `splitOn_flatMap_concat`: the pieces of a text whose lines all end.
-/

namespace TrackCatalog.Text

variable {α : Type} [DecidableEq α] {lf cr a c : α} {l xs p : List α} {ls : List (List α)}

/-- A piece between two marks holds no mark. -/
theorem mem_of_mem_splitOn (hp : p ∈ xs.splitOn a) (hc : c ∈ p) : c ∈ xs ∧ c ≠ a := by
  induction xs generalizing p with
  | nil =>
    rw [List.splitOn_nil, List.mem_singleton] at hp
    simp [hp] at hc
  | cons x xs ih =>
    rw [List.splitOn_cons_eq_if_modifyHead] at hp
    split at hp
    · rcases List.mem_cons.1 hp with rfl | hp
      · simp at hc
      · exact (ih hp hc).imp_left (List.mem_cons_of_mem _)
    · next hx =>
      obtain ⟨q, qs, hq⟩ := List.exists_cons_of_ne_nil (List.splitOn_ne_nil a xs)
      rw [hq, List.modifyHead_cons] at hp
      rcases List.mem_cons.1 hp with rfl | hp
      · rcases List.mem_cons.1 hc with rfl | hc
        · exact ⟨List.mem_cons_self, by simpa using hx⟩
        · exact (ih (by rw [hq]; exact List.mem_cons_self) hc).imp_left (List.mem_cons_of_mem _)
      · exact (ih (by rw [hq]; exact List.mem_cons_of_mem _ hp) hc).imp_left
          (List.mem_cons_of_mem _)

theorem not_mem_of_mem_splitOn (hp : p ∈ xs.splitOn a) : a ∉ p :=
  fun ha => (mem_of_mem_splitOn hp ha).2 rfl

theorem pieces_of_not_mem (h : lf ∉ l) : pieces lf l = if l = [] then [] else [l] := by
  induction l with
  | nil => rfl
  | cons x l ih =>
    have hx : x ≠ lf := fun e => h (e ▸ List.mem_cons_self)
    have hl : lf ∉ l := fun hm => h (List.mem_cons_of_mem _ hm)
    have hstep : pieces lf (x :: l) = consPiece lf x (pieces lf l) := rfl
    rw [hstep, ih hl, if_neg (List.cons_ne_nil x l)]
    by_cases he : l = []
    · rw [if_pos he, he]
      rfl
    · rw [if_neg he, consPiece, if_neg hx]

theorem pieces_append_cons (h : lf ∉ l) (xs : List α) :
    pieces lf (l ++ lf :: xs) = (l ++ [lf]) :: pieces lf xs := by
  induction l with
  | nil =>
    have hstep : pieces lf (lf :: xs) = consPiece lf lf (pieces lf xs) := rfl
    rw [List.nil_append, hstep]
    cases pieces lf xs with
    | nil => rfl
    | cons p ps => rw [consPiece, if_pos rfl, List.nil_append]
  | cons x l ih =>
    have hx : x ≠ lf := fun e => h (e ▸ List.mem_cons_self)
    have hl : lf ∉ l := fun hm => h (List.mem_cons_of_mem _ hm)
    have hstep : pieces lf (x :: l ++ lf :: xs) = consPiece lf x (pieces lf (l ++ lf :: xs)) := rfl
    rw [hstep, ih hl, consPiece, if_neg hx, List.cons_append]

theorem chomp_of_not_mem (h : lf ∉ l) (cr : α) : chomp lf cr l = l := by
  unfold chomp
  split
  · next he => simpa using he.symm
  · next x rest he =>
    have hx : x ∈ l := by
      rw [← List.mem_reverse, he]
      exact List.mem_cons_self
    have hne : x ≠ lf := fun e => h (e ▸ hx)
    rw [if_neg hne]

/-- **The first line of a text**, and the lines of what follows it. -/
theorem lines_append_cons (h : lf ∉ l) (cr : α) (xs : List α) :
    lines lf cr (l ++ lf :: xs) = chomp lf cr (l ++ [lf]) :: lines lf cr xs := by
  rw [lines, pieces_append_cons h, List.map_cons]
  rfl

/-- A text without a line feed is one line, or none if it is empty. -/
theorem lines_of_not_mem (h : lf ∉ l) (cr : α) :
    lines lf cr l = if l = [] then [] else [l] := by
  rw [lines, pieces_of_not_mem h]
  split
  · rfl
  · rw [List.map_singleton, chomp_of_not_mem h]

/-- The ending of a line is a line feed and at most a carriage return before it. -/
theorem eq_chomp_or (lf cr : α) (l : List α) :
    l = chomp lf cr (l ++ [lf]) ∨ l = chomp lf cr (l ++ [lf]) ++ [cr] := by
  unfold chomp
  rw [List.reverse_append, List.reverse_singleton, List.singleton_append]
  dsimp only
  rw [if_pos rfl]
  cases hr : l.reverse with
  | nil =>
    rw [List.reverse_eq_nil_iff] at hr
    exact .inl hr
  | cons y rest =>
    have hl : l = rest.reverse ++ [y] := by
      rw [← List.reverse_reverse l, hr, List.reverse_cons]
    dsimp only
    by_cases hy : y = cr
    · rw [if_pos hy, ← hy]
      exact .inr hl
    · rw [if_neg hy, List.reverse_cons]
      exact .inl hl

theorem chomp_concat_cr (lf cr : α) (l : List α) : chomp lf cr (l ++ [cr] ++ [lf]) = l := by
  simp [chomp]

theorem chomp_concat (h : l.getLast? ≠ some cr) : chomp lf cr (l ++ [lf]) = l := by
  rcases eq_chomp_or lf cr l with he | he
  · exact he.symm
  · rw [he, List.getLast?_concat] at h
    exact absurd rfl h

/-- The text has these lines, here without their endings. A line ends at a line feed, and a carriage
return right before it belongs to the ending. What stands behind the last line feed is a line too,
unless it is empty. -/
inductive HasLines (lf cr : α) : List α → List (List α) → Prop
  | nil : HasLines lf cr [] []
  | unended {l : List α} (nonempty : l ≠ []) (free : lf ∉ l) : HasLines lf cr l [l]
  | ended {l xs : List α} {ls : List (List α)} (free : lf ∉ l) (plain : l.getLast? ≠ some cr)
      (rest : HasLines lf cr xs ls) : HasLines lf cr (l ++ lf :: xs) (l :: ls)
  | endedCr {l xs : List α} {ls : List (List α)} (free : lf ∉ l) (rest : HasLines lf cr xs ls) :
      HasLines lf cr (l ++ cr :: lf :: xs) (l :: ls)

/-- The lines that a text is cut into are lines that it has. -/
theorem hasLines_lines (lf cr : α) (xs : List α) : HasLines lf cr xs (lines lf cr xs) := by
  -- on the length of the text: its first line, if one ends in it, and then what follows that line
  induction hn : xs.length using Nat.strongRecOn generalizing xs with
  | _ n ih =>
    by_cases hmem : lf ∈ xs
    · obtain ⟨l, rest, rfl, hl⟩ := List.eq_append_cons_of_mem hmem
      rw [List.length_append, List.length_cons] at hn
      have hrest : HasLines lf cr rest (lines lf cr rest) := ih rest.length (by omega) rest rfl
      rw [lines_append_cons hl]
      by_cases hcr : l.getLast? = some cr
      · obtain ⟨k, rfl⟩ := List.getLast?_eq_some_iff.1 hcr
        have hk : lf ∉ k := fun h => hl (List.mem_append_left _ h)
        rw [chomp_concat_cr, List.append_assoc]
        exact .endedCr hk hrest
      · rw [chomp_concat hcr]
        exact .ended hl hcr hrest
    · rw [lines_of_not_mem hmem]
      split
      · next he =>
        rw [he]
        exact .nil
      · next he => exact .unended he hmem

/-- **The lines of a text** are these and no others. -/
theorem hasLines_iff (hne : lf ≠ cr) : HasLines lf cr xs ls ↔ lines lf cr xs = ls := by
  constructor
  · intro h
    induction h with
    | nil => rfl
    | unended nonempty free => rw [lines_of_not_mem free, if_neg nonempty]
    | ended free plain _ ih => rw [lines_append_cons free, chomp_concat plain, ih]
    | @endedCr l xs ls free _ ih =>
      have hl : lf ∉ l ++ [cr] := by simp [free, hne]
      have hcut : l ++ cr :: lf :: xs = (l ++ [cr]) ++ lf :: xs := by simp
      rw [hcut, lines_append_cons hl, chomp_concat_cr, ih]
  · rintro rfl
    exact hasLines_lines lf cr xs

/-- A piece ends at its only line feed, if it has one. -/
theorem of_mem_pieces (h : p ∈ pieces lf xs) : ∃ l, lf ∉ l ∧ (p = l ∨ p = l ++ [lf]) := by
  induction xs generalizing p with
  | nil => cases h
  | cons x xs ih =>
    have hstep : pieces lf (x :: xs) = consPiece lf x (pieces lf xs) := rfl
    rw [hstep] at h
    have hone : p = [x] → ∃ l, lf ∉ l ∧ (p = l ∨ p = l ++ [lf]) := by
      rintro rfl
      by_cases hx : x = lf
      · exact ⟨[], List.not_mem_nil, .inr (by rw [hx, List.nil_append])⟩
      · exact ⟨[x], by simpa using Ne.symm hx, .inl rfl⟩
    cases hp : pieces lf xs with
    | nil =>
      rw [hp] at h
      exact hone (List.mem_singleton.1 h)
    | cons q qs =>
      rw [hp, consPiece] at h
      rw [hp] at ih
      split at h
      · rcases List.mem_cons.1 h with h | h
        · exact hone h
        · exact ih h
      · next hx =>
        rcases List.mem_cons.1 h with rfl | h
        · -- the element joins the piece in front
          obtain ⟨l, hl, hq⟩ := ih List.mem_cons_self
          refine ⟨x :: l, ?_, hq.imp (congrArg (x :: ·)) (congrArg (x :: ·))⟩
          rw [List.mem_cons, not_or]
          exact ⟨Ne.symm hx, hl⟩
        · exact ih (List.mem_cons_of_mem _ h)

/-- **No line holds a line feed.** -/
theorem not_mem_of_mem_lines (h : l ∈ lines lf cr xs) : lf ∉ l := by
  obtain ⟨p, hp, rfl⟩ := List.mem_map.1 h
  obtain ⟨k, hk, rfl | rfl⟩ := of_mem_pieces hp
  · rw [chomp_of_not_mem hk]
    exact hk
  · intro hm
    rcases eq_chomp_or lf cr k with he | he
    · exact hk (he ▸ hm)
    · exact hk (he ▸ List.mem_append_left _ hm)

/-- The pieces with the marks before all but the first of them are the text. -/
theorem append_flatMap_of_splitOn (h : xs.splitOn a = p :: ls) : p ++ ls.flatMap (a :: ·) = xs := by
  have hxs : [a].intercalate (xs.splitOn a) = xs := List.intercalate_splitOn a
  rw [h] at hxs
  rw [← hxs]
  clear h hxs
  induction ls generalizing p with
  | nil => simp
  | cons q ls ih =>
    rw [List.flatMap_cons, List.cons_append, ih, List.intercalate_cons_cons, List.append_assoc,
      List.singleton_append]

/-- Ending each piece of a text ends the text. -/
theorem flatMap_concat_splitOn (a : α) (xs : List α) :
    (xs.splitOn a).flatMap (fun l => l ++ [a]) = xs ++ [a] := by
  obtain ⟨p, ls, h⟩ := List.exists_cons_of_ne_nil (List.splitOn_ne_nil a xs)
  rw [h, ← append_flatMap_of_splitOn h]
  clear h
  induction ls generalizing p with
  | nil => simp
  | cons q ls ih => rw [List.flatMap_cons, ih, List.flatMap_cons]; simp

/-- There is one piece more than there are marks. -/
theorem length_splitOn (a : α) (xs : List α) : (xs.splitOn a).length = xs.count a + 1 := by
  induction xs with
  | nil => simp
  | cons x xs ih =>
    rw [List.splitOn_cons_eq_if_modifyHead]
    split
    · next hx =>
      rw [List.length_cons, ih, eq_of_beq hx, List.count_cons_self]
    · next hx =>
      rw [List.length_modifyHead, ih, List.count_cons_of_ne (by simpa using hx)]

theorem length_splitOn_le (a : α) (xs : List α) : (xs.splitOn a).length ≤ xs.length + 1 := by
  have hcount : xs.count a ≤ xs.length := List.count_le_length
  rw [length_splitOn]
  omega

/-- A text whose lines all end has one more piece behind the last of them. -/
theorem splitOn_flatMap_concat (h : ∀ l ∈ ls, lf ∉ l) :
    (ls.flatMap fun l => l ++ [lf]).splitOn lf = ls ++ [[]] := by
  induction ls with
  | nil => rfl
  | cons l ls ih =>
    have hl : lf ∉ l := h l List.mem_cons_self
    have hls : ∀ l ∈ ls, lf ∉ l := fun k hk => h k (List.mem_cons_of_mem _ hk)
    rw [List.flatMap_cons, List.append_assoc, List.singleton_append,
      List.splitOn_append_cons_self_of_not_mem hl, ih hls, List.cons_append]

end TrackCatalog.Text
