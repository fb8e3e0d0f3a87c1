import Mathlib.Data.List.Flatten
import TrackCatalog.Proofs.Sectioned.Steps

/-!
# How documents are laid out

A document can be written in many ways: blank lines and comments may stand anywhere, keys are in any
case, either separator will do, and blanks surround keys, separators and values. A value with
several lines goes on with indented lines. Not every document can be written: keys must not look
like a comment or a header, and what a line holds has no blanks at its ends. What can be written is
read as it is meant, in whatever way it is written.

* `SectionedDocument.Normal`: the documents that can be written.
* `SectionedDocument.Written`: the texts that a document can be written as.
* `SectionedDocument.parse_of_written`: such a text is read as that document.
* `SectionedDocument.Written.sublist`, `length_sections_le`: it is no shorter than what it holds.
-/

namespace TrackCatalog

open Text (AllBlank isBlank trimList)
open SectionedDocument

/-! ## Documents that can be written -/

/-- The text can stand as a key. -/
structure KeyForm (key : String) : Prop where
  nonempty : key ≠ ""
  lower : lowerAscii key = key
  trimmed : trimList key.toList = key.toList
  noSeparator : ∀ c ∈ key.toList, isSeparator c = false
  noBreak : '\n' ∉ key.toList
  /-- Its line is neither a comment nor a header. -/
  start : ∀ c ∈ key.toList.head?, c ≠ '#' ∧ c ≠ ';' ∧ c ≠ '['

/-- The text can stand as a value, in one line or in several. -/
structure ValueForm (value : String) : Prop where
  trimmed : ∀ piece ∈ value.toList.splitOn '\n', trimList piece = piece
  /-- The lines after the first are neither blank nor comments. -/
  content : ∀ piece ∈ (value.toList.splitOn '\n').tail, isRemark piece = false

/-- The section can be written. -/
structure Section.Normal (s : Section) : Prop where
  noBreak : '\n' ∉ s.name.toList
  keys : ∀ e ∈ s.entries, KeyForm e.1
  values : ∀ e ∈ s.entries, ValueForm e.2
  nodup : (s.entries.map Prod.fst).Nodup

/-- The document can be written. -/
structure SectionedDocument.Normal (d : SectionedDocument) : Prop where
  sections : ∀ s ∈ d.sections, s.Normal
  nodup : (d.sections.map Section.name).Nodup

/-- A text in one line without blanks at its ends can stand as a value. -/
theorem ValueForm.of_line {value : String} (hbreak : '\n' ∉ value.toList)
    (htrim : trimList value.toList = value.toList) : ValueForm value := by
  have hpieces : value.toList.splitOn '\n' = [value.toList] := List.splitOn_eq_singleton hbreak
  constructor
  · intro piece hp
    rw [hpieces, List.mem_singleton] at hp
    rw [hp, htrim]
  · intro piece hp
    rw [hpieces] at hp
    simp at hp

/-! ## Texts that it is written as -/

/-- Each of the things has its block, and the blocks follow each other. -/
inductive InBlocks {α β : Type} (R : α → List β → Prop) : List α → List β → Prop
  | nil : InBlocks R [] []
  | cons {a : α} {as : List α} {block rest : List β} (first : R a block)
      (others : InBlocks R as rest) : InBlocks R (a :: as) (block ++ rest)

/-- The line opens the section with this name. -/
inductive Opens (name : String) : List Char → Prop
  | intro {trail : List Char} (blank : AllBlank trail) :
      Opens name ('[' :: name.toList ++ ']' :: trail)

/-- The line assigns the piece to the key. -/
inductive Assigns (key : String) (piece : List Char) : List Char → Prop
  | intro {word gap lead trail : List Char} {mark : Char}
      (spelled : word.map Char.toLower = key.toList) (gap_blank : AllBlank gap)
      (separator : isSeparator mark = true) (lead_blank : AllBlank lead)
      (trail_blank : AllBlank trail) :
      Assigns key piece (word ++ gap ++ mark :: (lead ++ piece ++ trail))

/-- The line goes on with the piece. -/
inductive Continues (piece : List Char) : List Char → Prop
  | intro {c : Char} {lead trail : List Char} (indented : isIndented [c] = true)
      (lead_blank : AllBlank lead) (trail_blank : AllBlank trail) :
      Continues piece (c :: (lead ++ piece ++ trail))

/-- The lines hold the entry. -/
inductive Entry.Written (e : Entry) : List (List Char) → Prop
  | intro {piece raw : List Char} {pieces raws : List (List Char)}
      (cut : e.2.toList.splitOn '\n' = piece :: pieces) (first : Assigns e.1 piece raw)
      (more : List.Forall₂ Continues pieces raws) : Entry.Written e (raw :: raws)

/-- The lines hold the section. -/
inductive Section.Written (s : Section) : List (List Char) → Prop
  | intro {raw : List Char} {raws : List (List Char)} (header : Opens s.name raw)
      (entries : InBlocks Entry.Written s.entries raws) : Section.Written s (raw :: raws)

/-- The text holds the document. Blank lines and comments may stand between its lines. -/
def SectionedDocument.Written (d : SectionedDocument) (text : String) : Prop :=
  InBlocks Section.Written d.sections ((text.toList.splitOn '\n').filter hasContent)

/-! ## What its lines do -/

variable {draft older : Draft} {name key value : String} {entries : List Entry}
  {raw piece : List Char} {raws pieces : List (List Char)}

theorem isBlank_of_isSeparator {c : Char} (h : isSeparator c = true) : isBlank c = false := by
  simp only [isSeparator, Bool.or_eq_true, decide_eq_true_eq] at h
  rcases h with rfl | rfl <;> decide

theorem isSeparator_toLower (c : Char) : isSeparator c.toLower = isSeparator c := by
  have hequals : c.toLower = '=' ↔ c = '=' := Text.toLower_eq_iff (by decide)
  have hcolon : c.toLower = ':' ↔ c = ':' := Text.toLower_eq_iff (by decide)
  simp only [isSeparator, hequals, hcolon]

theorem step_of_opens (h : Opens name raw) (unused : ∀ s ∈ draft, s.name ≠ name) :
    Step draft raw (⟨name, []⟩ :: draft) := by
  obtain ⟨hblank⟩ := h
  refine .header (fun hi => by simp [isIndented] at hi) ?_ unused
  have hopen : isBlank '[' = false := by decide
  have hclose : isBlank ']' = false := by decide
  rw [Text.trimList_append_cons hclose, List.dropWhile_cons_of_neg (by simp [hopen]),
    List.rdropWhile_eq_nil_iff.2 hblank]

/-- The first character of a key, before it is put in lower case. -/
theorem KeyForm.head_word (h : KeyForm key) {word : List Char}
    (hw : word.map Char.toLower = key.toList) :
    ∃ c rest, word = c :: rest ∧ isBlank c = false ∧ c ≠ '#' ∧ c ≠ ';' ∧ c ≠ '[' := by
  cases word with
  | nil =>
    have hkey : key = "" := String.toList_eq_nil_iff.1 hw.symm
    exact absurd hkey h.nonempty
  | cons c rest =>
    rw [List.map_cons] at hw
    have hblank : isBlank c = false := by
      have htrim := h.trimmed
      rw [← hw] at htrim
      rw [← Text.isBlank_toLower]
      exact Text.isBlank_head_trimList htrim
    have hstart := h.start c.toLower (by rw [← hw]; exact rfl)
    refine ⟨c, rest, rfl, hblank, ?_, ?_, ?_⟩
    · rintro rfl
      exact hstart.1 rfl
    · rintro rfl
      exact hstart.2.1 rfl
    · rintro rfl
      exact hstart.2.2 rfl

/-- What stands before the separator has no other separator in it. -/
theorem KeyForm.isSeparator_word (hk : KeyForm key) {word gap : List Char}
    (hword : word.map Char.toLower = key.toList) (hgap : AllBlank gap) :
    ∀ c ∈ word ++ gap, isSeparator c = false := by
  intro c hc
  rcases List.mem_append.1 hc with hc | hc
  · rw [← isSeparator_toLower]
    refine hk.noSeparator _ ?_
    rw [← hword]
    exact List.mem_map_of_mem hc
  · by_contra hsep
    rw [Bool.not_eq_false] at hsep
    have := isBlank_of_isSeparator hsep
    simp [hgap c hc] at this

theorem step_of_assigns (hk : KeyForm key) (hp : trimList piece = piece) (h : Assigns key piece raw)
    (unused : ∀ e ∈ entries, e.1 ≠ key) :
    Step (⟨name, entries⟩ :: older) raw (⟨name, (key, .ofList piece) :: entries⟩ :: older) := by
  obtain @⟨word, gap, lead, trail, mark, hword, hgap, hmark, hlead, htrail⟩ := h
  obtain ⟨c, rest, rfl, hc, hhash, hsemi, hopen⟩ := hk.head_word hword
  have hmarkBlank := isBlank_of_isSeparator hmark
  -- the line begins with the key, so only blanks at its other end are trimmed
  have hline : trimList (c :: rest ++ gap ++ mark :: (lead ++ piece ++ trail)) =
      (c :: rest ++ gap) ++ mark :: (lead ++ piece ++ trail).rdropWhile isBlank := by
    rw [Text.trimList_append_cons hmarkBlank]
    congr 1
    exact List.dropWhile_cons_of_neg (by simp [hc])
  have hvalue : trimList ((lead ++ piece ++ trail).rdropWhile isBlank) = piece := by
    rw [Text.trimList_rdropWhile, Text.trimList_pad hlead htrail, hp]
  have hcontent : hasContent (c :: rest ++ gap ++ mark :: (lead ++ piece ++ trail)) = true := by
    rw [hasContent, hline]
    simp [isRemark, hhash, hsemi]
  have hbefore := hk.isSeparator_word hword hgap
  have hspelled : key = lowerAscii (.ofList (trimList (c :: rest ++ gap))) := by
    rw [lowerAscii, String.toList_ofList, Text.trimList_append hgap, ← Text.trimList_map_toLower,
      hword, hk.trimmed, String.ofList_toList]
  have hfresh : Fresh (⟨name, entries⟩ :: older)
      (c :: rest ++ gap ++ mark :: (lead ++ piece ++ trail)) := by
    intro hi
    rcases (isIndented_cons _ _).1 hi with rfl | rfl
    · exact absurd hc (by decide)
    · exact absurd hc (by decide)
  have hstart : (trimList (c :: rest ++ gap ++ mark :: (lead ++ piece ++ trail))).head? ≠
      some '[' := by
    rw [hline]
    simpa using hopen
  have hstep :=
    Step.entry hcontent hfresh hstart hline hbefore hmark hspelled hk.nonempty rfl unused
  rwa [hvalue] at hstep

theorem step_of_continues (hp : trimList piece = piece) (hr : isRemark piece = false)
    (h : Continues piece raw) :
    Step (⟨name, (key, value) :: entries⟩ :: older) raw
      (⟨name, (key, value ++ "\n" ++ .ofList piece) :: entries⟩ :: older) := by
  obtain @⟨c, lead, trail, hindented, hlead, htrail⟩ := h
  have hc := (isIndented_cons _ _).1 hindented
  have hcBlank : AllBlank (c :: lead) := by
    have hone : AllBlank [c] := by rcases hc with rfl | rfl <;> decide
    exact hone.append hlead
  have hline : trimList (c :: (lead ++ piece ++ trail)) = piece := by
    have := Text.trimList_pad hcBlank htrail piece
    rwa [hp] at this
  have hcontent : hasContent (c :: (lead ++ piece ++ trail)) = true := by
    rw [hasContent, hline, hr]
    rfl
  have hraw := (isIndented_cons c (lead ++ piece ++ trail)).2 hc
  have hstep : Step (⟨name, (key, value) :: entries⟩ :: older) (c :: (lead ++ piece ++ trail)) _ :=
    .more hcontent hraw rfl
  rwa [hline] at hstep

/-! ## What blocks of lines do -/

theorem steps_of_continues (hp : ∀ piece ∈ pieces, trimList piece = piece ∧ isRemark piece = false)
    (h : List.Forall₂ Continues pieces raws) :
    Steps (⟨name, (key, value) :: entries⟩ :: older) raws
      (⟨name, (key, .ofList (value.toList ++ pieces.flatMap ('\n' :: ·))) :: entries⟩ ::
        older) := by
  -- each line adds a line feed and its piece, so the value grows while the lines are read
  induction h generalizing value with
  | nil =>
    rw [List.flatMap_nil, List.append_nil, String.ofList_toList]
    exact .nil
  | @cons piece raw pieces raws hfirst _ ih =>
    obtain ⟨htrim, hremark⟩ := hp piece List.mem_cons_self
    have htext : value.toList ++ (piece :: pieces).flatMap ('\n' :: ·) =
        (value ++ "\n" ++ String.ofList piece).toList ++ pieces.flatMap ('\n' :: ·) := by
      simp
    rw [htext]
    exact .cons (step_of_continues htrim hremark hfirst)
      (ih fun p hm => hp p (List.mem_cons_of_mem _ hm))

theorem steps_of_entry {e : Entry} (hk : KeyForm e.1) (hv : ValueForm e.2)
    (unused : ∀ d ∈ entries, d.1 ≠ e.1) (h : Entry.Written e raws) :
    Steps (⟨name, entries⟩ :: older) raws (⟨name, e :: entries⟩ :: older) := by
  obtain @⟨piece, raw, pieces, raws, hcut, hfirst, hmore⟩ := h
  have hpiece : trimList piece = piece := hv.trimmed piece (by simp [hcut])
  have hpieces : ∀ p ∈ pieces, trimList p = p ∧ isRemark p = false := fun p hp =>
    ⟨hv.trimmed p (by simp [hcut, hp]), hv.content p (by simp [hcut, hp])⟩
  have hvalue :
      String.ofList ((String.ofList piece).toList ++ pieces.flatMap ('\n' :: ·)) = e.2 := by
    rw [String.toList_ofList, Text.append_flatMap_of_splitOn hcut, String.ofList_toList]
  have hrest : Steps (⟨name, (e.1, .ofList piece) :: entries⟩ :: older) raws
      (⟨name, (e.1, e.2) :: entries⟩ :: older) := by
    rw [← hvalue]
    exact steps_of_continues hpieces hmore
  exact .cons (step_of_assigns hk hpiece hfirst unused) hrest

theorem steps_of_entries {es : List Entry} (hk : ∀ e ∈ es, KeyForm e.1)
    (hv : ∀ e ∈ es, ValueForm e.2) (nodup : (es.map Prod.fst).Nodup)
    (unused : ∀ e ∈ es, ∀ d ∈ entries, d.1 ≠ e.1) (h : InBlocks Entry.Written es raws) :
    Steps (⟨name, entries⟩ :: older) raws (⟨name, es.reverse ++ entries⟩ :: older) := by
  -- the newest entry comes first, so the entries before the block grow as well
  induction h generalizing entries with
  | nil => exact .nil
  | @cons e es block rest hfirst _ ih =>
    rw [List.map_cons, List.nodup_cons] at nodup
    have hstep : Steps (⟨name, entries⟩ :: older) block (⟨name, e :: entries⟩ :: older) :=
      steps_of_entry (hk e List.mem_cons_self) (hv e List.mem_cons_self)
        (unused e List.mem_cons_self) hfirst
    have hunused : ∀ d ∈ es, ∀ c ∈ e :: entries, c.1 ≠ d.1 := by
      intro d hd c hc
      rcases List.mem_cons.1 hc with rfl | hc
      · exact fun heq => nodup.1 (heq ▸ List.mem_map_of_mem hd)
      · exact unused d (List.mem_cons_of_mem _ hd) c hc
    rw [List.reverse_cons, List.append_assoc, List.singleton_append]
    exact hstep.append (ih (fun d hd => hk d (List.mem_cons_of_mem _ hd))
      (fun d hd => hv d (List.mem_cons_of_mem _ hd)) nodup.2 hunused)

/-- A section as a draft holds it. -/
def Section.newestFirst (s : Section) : Section := ⟨s.name, s.entries.reverse⟩

theorem steps_of_section {s : Section} (hs : s.Normal) (unused : ∀ r ∈ draft, r.name ≠ s.name)
    (h : s.Written raws) : Steps draft raws (s.newestFirst :: draft) := by
  obtain @⟨raw, raws, hheader, hentries⟩ := h
  have hrest : Steps (⟨s.name, []⟩ :: draft) raws (⟨s.name, s.entries.reverse ++ []⟩ :: draft) :=
    steps_of_entries hs.keys hs.values hs.nodup (fun _ _ _ hd => by simp at hd) hentries
  rw [List.append_nil] at hrest
  exact .cons (step_of_opens hheader unused) hrest

theorem steps_of_sections {ss : List Section} (hs : ∀ s ∈ ss, s.Normal)
    (nodup : (ss.map Section.name).Nodup) (unused : ∀ s ∈ ss, ∀ r ∈ draft, r.name ≠ s.name)
    (h : InBlocks Section.Written ss raws) :
    Steps draft raws ((ss.map Section.newestFirst).reverse ++ draft) := by
  induction h generalizing draft with
  | nil => exact .nil
  | @cons s ss block rest hfirst _ ih =>
    rw [List.map_cons, List.nodup_cons] at nodup
    have hstep := steps_of_section (hs s List.mem_cons_self) (unused s List.mem_cons_self) hfirst
    have hunused : ∀ r ∈ ss, ∀ q ∈ s.newestFirst :: draft, q.name ≠ r.name := by
      intro r hr q hq
      rcases List.mem_cons.1 hq with rfl | hq
      · exact fun heq => nodup.1 (heq ▸ List.mem_map_of_mem hr)
      · exact unused r (List.mem_cons_of_mem _ hr) q hq
    rw [List.map_cons, List.reverse_cons, List.append_assoc, List.singleton_append]
    exact hstep.append (ih (fun r hr => hs r (List.mem_cons_of_mem _ hr)) nodup.2 hunused)

/-- The blocks of a normal document lead to it from nothing. -/
theorem steps_of_blocks {d : SectionedDocument} (hd : d.Normal)
    (h : InBlocks Section.Written d.sections raws) :
    Steps [] raws (d.sections.map Section.newestFirst).reverse := by
  have hsteps : Steps [] raws ((d.sections.map Section.newestFirst).reverse ++ []) :=
    steps_of_sections hd.sections hd.nodup (fun _ _ _ hr => by simp at hr) h
  rwa [List.append_nil] at hsteps

theorem ofDraft_newestFirst (d : SectionedDocument) :
    ofDraft (d.sections.map Section.newestFirst).reverse = d := by
  unfold ofDraft
  rw [List.map_reverse, List.reverse_reverse, List.map_map]
  have hid : (fun s : Section => (⟨s.name, s.entries.reverse⟩ : Section)) ∘ Section.newestFirst =
      id := by
    funext s
    simp [Section.newestFirst]
  rw [hid, List.map_id]

/-- **However a document is laid out, it is read as it is meant.** -/
theorem SectionedDocument.parse_of_written {d : SectionedDocument} {text : String} (hd : d.Normal)
    (h : d.Written text) : parse text = .ok d := by
  exact parse_eq_ok_iff.2 ⟨_, steps_filter_iff.1 (steps_of_blocks hd h), ofDraft_newestFirst d⟩

/-! ## How much a text holds -/

theorem InBlocks.exists_block {α β : Type} {R : α → List β → Prop} {a : α} {as : List α}
    {raws : List β} (h : InBlocks R as raws) (ha : a ∈ as) :
    ∃ block, R a block ∧ block.Sublist raws := by
  induction h with
  | nil => simp at ha
  | cons first _ ih =>
    rcases List.mem_cons.1 ha with rfl | ha
    · exact ⟨_, first, List.sublist_append_left _ _⟩
    · obtain ⟨block, hblock, hsub⟩ := ih ha
      exact ⟨block, hblock, hsub.trans (List.sublist_append_right _ _)⟩

theorem InBlocks.length_le {α β : Type} {R : α → List β → Prop} {as : List α} {raws : List β}
    (hne : ∀ a block, R a block → block ≠ []) (h : InBlocks R as raws) :
    as.length ≤ raws.length := by
  induction h with
  | nil => exact Nat.le_refl _
  | cons first _ ih =>
    have := List.length_pos_iff.2 (hne _ _ first)
    rw [List.length_cons, List.length_append]
    omega

theorem Assigns.sublist (h : Assigns key piece raw) : piece.Sublist raw := by
  cases h
  refine List.Sublist.trans ?_ (List.sublist_append_right _ _)
  exact ((List.sublist_append_right _ _).trans (List.sublist_append_left _ _)).cons _

theorem Continues.sublist (h : Continues piece raw) : piece.Sublist raw := by
  cases h
  exact ((List.sublist_append_right _ _).trans (List.sublist_append_left _ _)).cons _

theorem Entry.Written.sublist {e : Entry} (h : Entry.Written e raws) :
    (e.2.toList ++ ['\n']).Sublist (raws.flatMap fun raw => raw ++ ['\n']) := by
  obtain @⟨piece, raw, pieces, raws, hcut, hfirst, hmore⟩ := h
  rw [← Text.flatMap_concat_splitOn, hcut, List.flatMap_cons, List.flatMap_cons]
  refine (hfirst.sublist.append_right _).append ?_
  -- the lines that go on with the value, one piece in each
  clear hcut
  induction hmore with
  | nil => exact List.Sublist.refl _
  | cons first _ ih =>
    rw [List.flatMap_cons, List.flatMap_cons]
    exact (first.sublist.append_right _).append ih

theorem Section.Written.sublist {s : Section} {e : Entry} (h : s.Written raws)
    (he : e ∈ s.entries) :
    (e.2.toList ++ ['\n']).Sublist (raws.flatMap fun raw => raw ++ ['\n']) := by
  obtain ⟨-, hentries⟩ := h
  obtain ⟨block, hblock, hsub⟩ := hentries.exists_block he
  exact hblock.sublist.trans ((hsub.cons _).flatMap _)

/-- **The values are parts of the text.** -/
theorem SectionedDocument.Written.sublist {d : SectionedDocument} {text : String} {s : Section}
    {e : Entry} (h : d.Written text) (hs : s ∈ d.sections) (he : e ∈ s.entries) :
    e.2.toList.Sublist text.toList := by
  obtain ⟨block, hblock, hsub⟩ := InBlocks.exists_block h hs
  have hlines := hblock.sublist he |>.trans ((hsub.trans List.filter_sublist).flatMap _)
  rw [Text.flatMap_concat_splitOn] at hlines
  exact (List.append_sublist_append_right _).1 hlines

theorem SectionedDocument.Written.length_sections_le {d : SectionedDocument} {text : String}
    (h : d.Written text) : d.sections.length ≤ text.toList.length + 1 := by
  have hblocks := InBlocks.length_le (fun s block hs => by cases hs; simp) h
  have hlines : ((text.toList.splitOn '\n').filter hasContent).length ≤
      (text.toList.splitOn '\n').length := List.length_filter_le _ _
  have hpieces := Text.length_splitOn_le '\n' text.toList
  omega

end TrackCatalog
