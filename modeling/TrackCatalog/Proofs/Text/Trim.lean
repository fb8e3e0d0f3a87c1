import Mathlib.Data.List.DropRight
import TrackCatalog.Text.Blank

/-!
# Trimming and letter case

Trimming takes the blanks off both ends of a text and nothing else, so how many blanks stood there
does not show. Neither blanks nor marks have a case, so putting a text in lower case leaves them.

* `exists_padding`: a text is its trimmed form with blanks around it.
* `trimList_pad`: blanks around a text are trimmed away.
* `trimList_append_cons`: a mark that is no blank stops the trimming on either side of it.
* `toLower_invariant`: a property that letters lack does not see the case.
-/

namespace TrackCatalog.Text

/-- All characters are blank. -/
def AllBlank (cs : List Char) : Prop := ∀ c ∈ cs, isBlank c = true

instance (cs : List Char) : Decidable (AllBlank cs) :=
  decidable_of_iff (cs.all isBlank = true) List.all_eq_true

variable {cs gap lead trail : List Char} {c : Char}

theorem trimList_eq (cs : List Char) :
    trimList cs = (cs.dropWhile isBlank).rdropWhile isBlank := rfl

theorem AllBlank.append (hl : AllBlank lead) (ht : AllBlank trail) : AllBlank (lead ++ trail) := by
  intro c hc
  rcases List.mem_append.1 hc with hc | hc
  · exact hl c hc
  · exact ht c hc

theorem dropWhile_append_of_allBlank (h : AllBlank gap) (cs : List Char) :
    (gap ++ cs).dropWhile isBlank = cs.dropWhile isBlank := by
  rw [List.dropWhile_append, List.dropWhile_eq_nil_iff.2 h]
  rfl

theorem rdropWhile_append_of_allBlank (h : AllBlank gap) (cs : List Char) :
    (cs ++ gap).rdropWhile isBlank = cs.rdropWhile isBlank := by
  induction gap using List.reverseRecOn with
  | nil => rw [List.append_nil]
  | append_singleton gap c ih =>
    have hc : isBlank c = true := h c (by simp)
    have hgap : AllBlank gap := fun d hd => h d (List.mem_append_left _ hd)
    rw [← List.append_assoc, List.rdropWhile_concat_pos _ _ _ hc, ih hgap]

/-! ## Blanks at the ends -/

/-- **Blanks around a text are trimmed away.** -/
theorem trimList_pad (hl : AllBlank lead) (ht : AllBlank trail) (cs : List Char) :
    trimList (lead ++ cs ++ trail) = trimList cs := by
  rw [trimList_eq, trimList_eq, List.append_assoc, dropWhile_append_of_allBlank hl,
    List.dropWhile_append]
  split
  · next he =>
    -- nothing but blanks is left, in `cs` and behind it
    rw [List.isEmpty_iff.1 he, List.dropWhile_eq_nil_iff.2 ht]
  · exact rdropWhile_append_of_allBlank ht _

theorem trimList_append (ht : AllBlank trail) (cs : List Char) :
    trimList (cs ++ trail) = trimList cs := by
  have hl : AllBlank [] := by simp [AllBlank]
  exact trimList_pad hl ht cs

/-- **A text is its trimmed form with blanks around it.** -/
theorem exists_padding (cs : List Char) :
    ∃ lead trail, AllBlank lead ∧ AllBlank trail ∧ cs = lead ++ trimList cs ++ trail := by
  have hl : AllBlank (cs.takeWhile isBlank) := fun c hc => List.mem_takeWhile_imp hc
  have ht : AllBlank ((cs.dropWhile isBlank).rtakeWhile isBlank) :=
    fun c hc => List.mem_rtakeWhile_imp hc
  refine ⟨_, _, hl, ht, ?_⟩
  rw [trimList_eq, List.append_assoc, List.rdropWhile_append_rtakeWhile,
    List.takeWhile_append_dropWhile]

theorem trimList_eq_nil_iff : trimList cs = [] ↔ AllBlank cs := by
  constructor
  · intro h
    obtain ⟨lead, trail, hl, ht, hcs⟩ := exists_padding cs
    rw [hcs, h, List.append_nil]
    exact hl.append ht
  · intro h
    have hnil : trimList [] = [] := rfl
    have := trimList_append h []
    rwa [List.nil_append, hnil] at this

/-- A text is trimmed to nothing when it is blank throughout. -/
theorem isEmpty_trim_iff {text : String} :
    (trim text).isEmpty = true ↔ text.toList.all isBlank = true := by
  rw [String.isEmpty_iff, List.all_eq_true, trim, String.ofList_eq_empty_iff]
  exact trimList_eq_nil_iff

@[simp] theorem trimList_trimList (cs : List Char) : trimList (trimList cs) = trimList cs := by
  obtain ⟨lead, trail, hl, ht, hcs⟩ := exists_padding cs
  have := trimList_pad hl ht (trimList cs)
  rw [← hcs] at this
  exact this.symm

theorem mem_of_mem_trimList (h : c ∈ trimList cs) : c ∈ cs := by
  obtain ⟨lead, trail, -, -, hcs⟩ := exists_padding cs
  rw [hcs]
  exact List.mem_append_left _ (List.mem_append_right _ h)

theorem isBlank_head_trimList {rest : List Char} (h : trimList cs = c :: rest) :
    isBlank c = false := by
  obtain ⟨more, hmore⟩ := List.rdropWhile_prefix isBlank (cs.dropWhile isBlank)
  rw [← trimList_eq, h] at hmore
  have hne : cs.dropWhile isBlank ≠ [] := by simp [← hmore]
  have hhead := List.head_dropWhile_not isBlank hne
  simpa only [← hmore, List.cons_append, List.head_cons] using hhead

theorem trimList_eq_self (h : ∀ c ∈ cs, isBlank c = false) : trimList cs = cs := by
  obtain ⟨lead, trail, hl, ht, hcs⟩ := exists_padding cs
  have hnone : ∀ gap, AllBlank gap → (∀ c ∈ gap, c ∈ cs) → gap = [] := by
    intro gap hgap hmem
    refine List.eq_nil_iff_forall_not_mem.2 fun c hc => ?_
    have := hgap c hc
    rw [h c (hmem c hc)] at this
    cases this
  have hlead := hnone lead hl fun c hc => by rw [hcs]; simp [hc]
  have htrail := hnone trail ht fun c hc => by rw [hcs]; simp [hc]
  rw [hlead, htrail, List.nil_append, List.append_nil] at hcs
  exact hcs.symm

/-! ## Marks inside -/

theorem rdropWhile_append_cons (hc : isBlank c = false) (xs ys : List Char) :
    (xs ++ c :: ys).rdropWhile isBlank = xs ++ c :: ys.rdropWhile isBlank := by
  induction ys using List.reverseRecOn with
  | nil => rw [List.rdropWhile_concat_neg _ _ _ (by simp [hc]), List.rdropWhile_nil]
  | append_singleton ys y ih =>
    have hsplit : xs ++ c :: (ys ++ [y]) = (xs ++ c :: ys) ++ [y] := by simp
    rw [hsplit]
    by_cases hy : isBlank y = true
    · rw [List.rdropWhile_concat_pos _ _ _ hy, List.rdropWhile_concat_pos _ _ _ hy, ih]
    · rw [List.rdropWhile_concat_neg _ _ _ hy, List.rdropWhile_concat_neg _ _ _ hy, ← hsplit]

/-- **A mark that is no blank stops the trimming** on either side of it. -/
theorem trimList_append_cons (hc : isBlank c = false) (xs ys : List Char) :
    trimList (xs ++ c :: ys) = xs.dropWhile isBlank ++ c :: ys.rdropWhile isBlank := by
  rw [trimList_eq, List.dropWhile_append]
  split
  · next he =>
    have hstop : (c :: ys).dropWhile isBlank = c :: ys :=
      List.dropWhile_cons_of_neg (by simp [hc])
    rw [hstop, List.isEmpty_iff.1 he]
    exact rdropWhile_append_cons hc [] ys
  · exact rdropWhile_append_cons hc _ ys

theorem trimList_rdropWhile (cs : List Char) : trimList (cs.rdropWhile isBlank) = trimList cs := by
  have ht : AllBlank (cs.rtakeWhile isBlank) := fun c hc => List.mem_rtakeWhile_imp hc
  have := trimList_append ht (cs.rdropWhile isBlank)
  rw [List.rdropWhile_append_rtakeWhile] at this
  exact this.symm

/-! ## Letter case -/

theorem toNat_toLower (c : Char) :
    c.toLower.toNat = if 65 ≤ c.toNat ∧ c.toNat ≤ 90 then c.toNat + 32 else c.toNat := by
  have hA : 'A'.val.toNat = 65 := rfl
  have hZ : 'Z'.val.toNat = 90 := rfl
  have hgap : ('a'.val - 'A'.val).toNat = 32 := rfl
  have hc : c.toNat = c.val.toNat := rfl
  unfold Char.toLower
  split
  · next h =>
    simp only [ge_iff_le, UInt32.le_iff_toNat_le] at h
    have hlower : (c.val + ('a'.val - 'A'.val)).toNat = c.val.toNat + 32 := by
      rw [UInt32.toNat_add, hgap]
      omega
    rw [if_pos (by omega)]
    exact hlower
  · next h =>
    simp only [ge_iff_le, UInt32.le_iff_toNat_le] at h
    rw [if_neg (by omega)]

theorem isAlpha_iff : c.isAlpha = true ↔
    (65 ≤ c.toNat ∧ c.toNat ≤ 90) ∨ (97 ≤ c.toNat ∧ c.toNat ≤ 122) := by
  change (decide ('A'.val ≤ c.val ∧ c.val ≤ 'Z'.val) ||
    (decide ('a'.val ≤ c.val) && decide (c.val ≤ 'z'.val))) = true ↔ _
  simp only [Bool.or_eq_true, Bool.and_eq_true, decide_eq_true_eq, UInt32.le_iff_toNat_le]
  exact Iff.rfl

/-- Only letters have another form in lower case, and that is a letter. -/
theorem toLower_cases (c : Char) :
    c.toLower = c ∨ c.isAlpha = true ∧ c.toLower.isAlpha = true := by
  have h := toNat_toLower c
  split at h
  · exact .inr ⟨isAlpha_iff.2 (by omega), isAlpha_iff.2 (by omega)⟩
  · exact .inl (Char.toNat_inj.1 h)

/-- **A property that letters lack does not see the case.** -/
theorem toLower_invariant {p : Char → Bool} (hp : ∀ c, c.isAlpha = true → p c = false) (c : Char) :
    p c.toLower = p c := by
  rcases toLower_cases c with h | ⟨hc, hl⟩
  · rw [h]
  · rw [hp _ hc, hp _ hl]

theorem toLower_eq_iff {mark : Char} (hm : mark.isAlpha = false) : c.toLower = mark ↔ c = mark := by
  have hp : ∀ d : Char, d.isAlpha = true → decide (d = mark) = false := by
    intro d hd
    refine decide_eq_false ?_
    rintro rfl
    rw [hm] at hd
    cases hd
  have := toLower_invariant hp c
  simpa using this

@[simp] theorem toLower_toLower (c : Char) : c.toLower.toLower = c.toLower := by
  have h := toNat_toLower c
  apply Char.toNat_inj.1
  rw [toNat_toLower c.toLower, if_neg]
  split at h <;> omega

/-- No visible ASCII character is blank. -/
theorem isBlank_of_visible (hl : 33 ≤ c.toNat) (hu : c.toNat ≤ 126) : isBlank c = false := by
  simp only [isBlank, blankRanges, List.any_cons, List.any_nil, Bool.or_false, Bool.or_eq_false_iff,
    Bool.and_eq_false_iff, decide_eq_false_iff_not]
  omega

@[simp] theorem isBlank_toLower (c : Char) : isBlank c.toLower = isBlank c :=
  toLower_invariant (fun _ h => by
    have := isAlpha_iff.1 h
    exact isBlank_of_visible (by omega) (by omega)) c

theorem trimList_map_toLower (cs : List Char) :
    trimList (cs.map Char.toLower) = (trimList cs).map Char.toLower := by
  have hrev (xs : List Char) :
      (xs.map Char.toLower).rdropWhile isBlank = (xs.rdropWhile isBlank).map Char.toLower := by
    simp only [List.rdropWhile, ← List.map_reverse, List.dropWhile_map, Function.comp_def,
      isBlank_toLower]
  rw [trimList_eq, trimList_eq, List.dropWhile_map, ← hrev]
  simp only [Function.comp_def, isBlank_toLower]

end TrackCatalog.Text
