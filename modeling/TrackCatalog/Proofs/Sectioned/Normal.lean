import Mathlib.Data.List.Forall2
import TrackCatalog.Proofs.Sectioned.Layout
import TrackCatalog.Sectioned.Render

/-!
# Documents that were read can be written

A document that was read is normal: each accepted line keeps the part of it read so far normal. And
a normal document is read back from its written form, which is one of its layouts.

* `SectionedDocument.normal_of_parse`: what was read can be written.
* `SectionedDocument.parse_render`: what can be written is read back.
* `SectionedDocument.parse_render_of_parse`: so what was read can be written and is read back.
-/

namespace TrackCatalog

open Text (AllBlank isBlank trimList)
open SectionedDocument

variable {draft draft' : Draft} {raw word value : List Char} {raws : List (List Char)}
  {key : String}

/-! ## What was read is normal -/

/-- What stands before the separator of an accepted line makes a key. -/
theorem keyForm_of_line {mark : Char} (hbreak : '\n' ∉ raw) (hcontent : hasContent raw = true)
    (hstart : (trimList raw).head? ≠ some '[') (hline : trimList raw = word ++ mark :: value)
    (hword : ∀ c ∈ word, isSeparator c = false) (hkey : key = lowerAscii (.ofList (trimList word)))
    (hne : key ≠ "") : KeyForm key := by
  have hlist : key.toList = (trimList word).map Char.toLower := by
    rw [hkey, toList_lowerAscii, String.toList_ofList]
  -- a character of the key is one of the line in lower case
  have hmem : ∀ d ∈ key.toList, ∃ c ∈ word, c.toLower = d := by
    intro d hd
    rw [hlist] at hd
    obtain ⟨c, hc, rfl⟩ := List.mem_map.1 hd
    exact ⟨c, Text.mem_of_mem_trimList hc, rfl⟩
  refine ⟨hne, ?_, ?_, ?_, ?_, ?_⟩
  · rw [hkey, lowerAscii, toList_lowerAscii, List.map_map, lowerAscii]
    simp only [Function.comp_def, Text.toLower_toLower]
  · rw [hlist, Text.trimList_map_toLower, Text.trimList_trimList]
  · intro d hd
    obtain ⟨c, hc, rfl⟩ := hmem d hd
    rw [isSeparator_toLower]
    exact hword c hc
  · intro hd
    obtain ⟨c, hc, hlower⟩ := hmem _ hd
    obtain rfl := (Text.toLower_eq_iff (by decide)).1 hlower
    refine hbreak (Text.mem_of_mem_trimList ?_)
    rw [hline]
    exact List.mem_append_left _ hc
  · cases word with
    | nil =>
      have : key.toList = [] := hlist
      exact absurd (String.toList_eq_nil_iff.1 this) hne
    | cons c rest =>
      -- the line starts with the key, and it is no comment
      have hc : isBlank c = false := Text.isBlank_head_trimList hline
      have htrim : trimList (c :: rest) = c :: rest.rdropWhile isBlank :=
        Text.trimList_append_cons hc [] rest
      intro d hd
      rw [hlist, htrim, List.map_cons, List.head?_cons, Option.mem_some_iff] at hd
      subst hd
      rw [hasContent, hline] at hcontent
      rw [hline] at hstart
      have hmark : ∀ m : Char, m.isAlpha = false → c ≠ m → c.toLower ≠ m :=
        fun m hm hne h => hne ((Text.toLower_eq_iff hm).1 h)
      have hremark : c ≠ '#' ∧ c ≠ ';' := by simpa [isRemark] using hcontent
      have hopen : c ≠ '[' := by simpa using hstart
      exact ⟨hmark _ (by decide) hremark.1, hmark _ (by decide) hremark.2,
        hmark _ (by decide) hopen⟩

/-- A trimmed line is a value. -/
theorem valueForm_of_line (hbreak : '\n' ∉ value) : ValueForm (.ofList (trimList value)) := by
  refine ValueForm.of_line ?_ ?_
  · rw [String.toList_ofList]
    exact fun h => hbreak (Text.mem_of_mem_trimList h)
  · rw [String.toList_ofList, Text.trimList_trimList]

/-- A value goes on with a trimmed line. -/
theorem ValueForm.more {value : String} (h : ValueForm value) (hbreak : '\n' ∉ raw)
    (hcontent : hasContent raw = true) : ValueForm (value ++ "\n" ++ .ofList (trimList raw)) := by
  have hpieces : (value ++ "\n" ++ String.ofList (trimList raw)).toList.splitOn '\n' =
      value.toList.splitOn '\n' ++ [trimList raw] := by
    have hline : (trimList raw).splitOn '\n' = [trimList raw] :=
      List.splitOn_eq_singleton fun h => hbreak (Text.mem_of_mem_trimList h)
    rw [← hline, ← List.splitOn_append_cons_self]
    simp
  have hremark : isRemark (trimList raw) = false := by simpa [hasContent] using hcontent
  constructor
  · intro piece hp
    rw [hpieces] at hp
    rcases List.mem_append.1 hp with hp | hp
    · exact h.trimmed piece hp
    · rw [List.mem_singleton.1 hp, Text.trimList_trimList]
  · intro piece hp
    rw [hpieces, List.tail_append_of_ne_nil (List.splitOn_ne_nil _ _)] at hp
    rcases List.mem_append.1 hp with hp | hp
    · exact h.content piece hp
    · rw [List.mem_singleton.1 hp, hremark]

theorem SectionedDocument.Normal.cons {s : Section} {older : Draft} (hs : s.Normal)
    (hd : Normal ⟨older⟩) (unused : ∀ r ∈ older, r.name ≠ s.name) : Normal ⟨s :: older⟩ := by
  refine ⟨List.forall_mem_cons.2 ⟨hs, hd.sections⟩, List.nodup_cons.2 ⟨fun hmem => ?_, hd.nodup⟩⟩
  obtain ⟨r, hr, hname⟩ := List.mem_map.1 hmem
  exact unused r hr hname

/-- The newest section of a normal document may be exchanged for one of the same name. -/
theorem SectionedDocument.Normal.set {s s' : Section} {older : Draft} (hd : Normal ⟨s :: older⟩)
    (hname : s'.name = s.name) (hs : s'.Normal) : Normal ⟨s' :: older⟩ := by
  have hold : Normal ⟨older⟩ :=
    ⟨fun r hr => hd.sections r (List.mem_cons_of_mem _ hr), (List.nodup_cons.1 hd.nodup).2⟩
  refine hold.cons hs fun r hr heq => (List.nodup_cons.1 hd.nodup).1 ?_
  rw [← hname, ← heq]
  exact List.mem_map_of_mem hr

/-- **Each step keeps what was read normal.** -/
theorem SectionedDocument.Step.normal (h : Step draft raw draft') (hbreak : '\n' ∉ raw)
    (hd : Normal ⟨draft⟩) : Normal ⟨draft'⟩ := by
  have hline : '\n' ∉ trimList raw := fun h => hbreak (Text.mem_of_mem_trimList h)
  cases h with
  | remark => exact hd
  | more hcontent _ hheld =>
    subst hheld
    obtain ⟨hname, hkeys, hvalues, hnodup⟩ := hd.sections _ List.mem_cons_self
    obtain ⟨hvalue, hothers⟩ := List.forall_mem_cons.1 hvalues
    exact hd.set rfl ⟨hname, List.forall_mem_cons.2 (List.forall_mem_cons.1 hkeys),
      List.forall_mem_cons.2 ⟨hvalue.more hbreak hcontent, hothers⟩, hnodup⟩
  | @header name _ hheader hfree =>
    have hname : '\n' ∉ name.toList := by
      intro hm
      rw [hheader] at hline
      simp [hm] at hline
    exact hd.cons ⟨hname, by simp, by simp, List.nodup_nil⟩ hfree
  | @entry key name word value mark entries older hcontent _ hstart hentry hword hmark hkey hne
      hheld hfree =>
    subst hheld
    obtain ⟨hname, hkeys, hvalues, hnodup⟩ := hd.sections _ List.mem_cons_self
    have hvalue : '\n' ∉ value := by
      intro hm
      rw [hentry] at hline
      simp [hm] at hline
    have hunused : key ∉ entries.map Prod.fst := by
      intro hm
      obtain ⟨e, he, heq⟩ := List.mem_map.1 hm
      exact hfree e he heq
    have hform := keyForm_of_line hbreak hcontent hstart hentry hword hkey hne
    exact hd.set rfl ⟨hname, List.forall_mem_cons.2 ⟨hform, hkeys⟩,
      List.forall_mem_cons.2 ⟨valueForm_of_line hvalue, hvalues⟩,
      List.nodup_cons.2 ⟨hunused, hnodup⟩⟩

theorem SectionedDocument.Steps.normal (h : Steps draft raws draft')
    (hbreak : ∀ raw ∈ raws, '\n' ∉ raw) (hd : Normal ⟨draft⟩) : Normal ⟨draft'⟩ := by
  induction h with
  | nil => exact hd
  | cons first _ ih =>
    obtain ⟨hfirst, hrest⟩ := List.forall_mem_cons.1 hbreak
    exact ih hrest (first.normal hfirst hd)

theorem Section.Normal.newestFirst {s : Section} (h : s.Normal) : s.newestFirst.Normal := by
  refine ⟨h.noBreak, fun e he => h.keys e (List.mem_reverse.1 he),
    fun e he => h.values e (List.mem_reverse.1 he), ?_⟩
  have := (List.reverse_perm _).nodup_iff.2 h.nodup
  rwa [← List.map_reverse] at this

/-- **What was read can be written.** -/
theorem SectionedDocument.normal_of_parse {text : String} {d : SectionedDocument}
    (h : parse text = .ok d) : d.Normal := by
  obtain ⟨draft, hsteps, rfl⟩ := parse_eq_ok_iff.1 h
  -- the draft holds all in reverse, and being normal does not depend on the order
  have hdraft := hsteps.normal (fun raw hraw => Text.not_mem_of_mem_splitOn hraw)
    ⟨by simp, List.nodup_nil⟩
  constructor
  · intro s hs
    obtain ⟨r, hr, rfl⟩ := List.mem_map.1 (List.mem_reverse.1 hs)
    exact (hdraft.sections r hr).newestFirst
  · have := (List.reverse_perm _).nodup_iff.2 hdraft.nodup
    simpa [ofDraft, Function.comp_def] using this

/-! ## What is normal is read back -/

/-- The text is these lines, each with its ending. -/
structure LinesOf (out : List Char) (raws : List (List Char)) : Prop where
  text : out = raws.flatMap fun raw => raw ++ ['\n']
  noBreak : ∀ raw ∈ raws, '\n' ∉ raw

/-- Things that are written as blocks of lines, one after the other. -/
theorem exists_inBlocks {α : Type} {R : α → List (List Char) → Prop} {f : α → List Char}
    {as : List α} (h : ∀ a ∈ as, ∃ block, LinesOf (f a) block ∧ R a block) :
    ∃ raws, LinesOf (as.flatMap f) raws ∧ InBlocks R as raws := by
  induction as with
  | nil => exact ⟨[], ⟨rfl, by simp⟩, .nil⟩
  | cons a as ih =>
    obtain ⟨block, hblock, hfirst⟩ := h a List.mem_cons_self
    obtain ⟨rest, hrest, hothers⟩ := ih fun b hb => h b (List.mem_cons_of_mem _ hb)
    refine ⟨block ++ rest, ⟨?_, ?_⟩, .cons hfirst hothers⟩
    · rw [List.flatMap_cons, List.flatMap_append, hblock.text, hrest.text]
    · intro raw hraw
      rcases List.mem_append.1 hraw with hraw | hraw
      · exact hblock.noBreak raw hraw
      · exact hrest.noBreak raw hraw

theorem exists_lines_renderEntry {e : Entry} (hk : KeyForm e.1) :
    ∃ raws, LinesOf (renderEntry e) raws ∧ Entry.Written e raws := by
  -- a value has at least one piece, which may be empty
  obtain ⟨piece, pieces, hcut⟩ := List.exists_cons_of_ne_nil (List.splitOn_ne_nil '\n' e.2.toList)
  have hbreak : ∀ p ∈ piece :: pieces, '\n' ∉ p := by
    intro p hp
    rw [← hcut] at hp
    exact Text.not_mem_of_mem_splitOn hp
  obtain ⟨hpiece, hpieces⟩ := List.forall_mem_cons.1 hbreak
  have hspelled : e.1.toList.map Char.toLower = e.1.toList := by
    rw [← toList_lowerAscii, hk.lower]
  have hspace : AllBlank [' '] := by decide
  have hnone : AllBlank [] := by decide
  have hfirst : Assigns e.1 piece (e.1.toList ++ [' '] ++ '=' :: ([' '] ++ piece ++ [])) :=
    .intro hspelled hspace rfl hspace hnone
  have hmore : List.Forall₂ Continues pieces (pieces.map fun p => '\t' :: ([] ++ p ++ [])) := by
    rw [List.forall₂_map_right_iff, List.forall₂_same]
    exact fun p _ => .intro rfl hnone hnone
  refine ⟨_, ⟨?_, ?_⟩, .intro hcut hfirst hmore⟩
  · unfold renderEntry
    rw [hcut]
    simp [List.flatMap_map]
  · intro raw hraw
    rcases List.mem_cons.1 hraw with rfl | hraw
    · simp [hk.noBreak, hpiece]
    · obtain ⟨p, hp, rfl⟩ := List.mem_map.1 hraw
      simp [hpieces p hp]

theorem exists_lines_renderSection {s : Section} (hs : s.Normal) :
    ∃ raws, LinesOf s.render raws ∧ s.Written raws := by
  obtain ⟨raws, hlines, hblocks⟩ :=
    exists_inBlocks fun e he => exists_lines_renderEntry (hs.keys e he)
  have hnone : AllBlank [] := by decide
  refine ⟨_, ⟨?_, ?_⟩, .intro (.intro hnone) hblocks⟩
  · rw [Section.render, hlines.text]
    simp
  · intro raw hraw
    rcases List.mem_cons.1 hraw with rfl | hraw
    · simp [hs.noBreak]
    · exact hlines.noBreak raw hraw

/-- **What can be written is read back.** -/
theorem SectionedDocument.parse_render {d : SectionedDocument} (hd : d.Normal) :
    parse d.render = .ok d := by
  obtain ⟨raws, hlines, hblocks⟩ :=
    exists_inBlocks fun s hs => exists_lines_renderSection (hd.sections s hs)
  have hcut : d.render.toList.splitOn '\n' = raws ++ [[]] := by
    rw [render, String.toList_ofList, hlines.text, Text.splitOn_flatMap_concat hlines.noBreak]
  -- nothing stands behind the last line
  have hlast : Steps (d.sections.map Section.newestFirst).reverse [[]]
      (d.sections.map Section.newestFirst).reverse := .cons (.remark rfl) .nil
  refine parse_eq_ok_iff.2 ⟨_, ?_, ofDraft_newestFirst d⟩
  rw [hcut]
  exact (steps_of_blocks hd hblocks).append hlast

/-- **What was read is written in a form that is read as the same document.** -/
theorem SectionedDocument.parse_render_of_parse (text : String) (d : SectionedDocument)
    (h : parse text = .ok d) : parse d.render = .ok d :=
  parse_render (normal_of_parse h)

namespace SectionedDocument.Unusual

/-- A text with brackets and spaces in a name, an empty name, and values that look like other lines
or are empty. -/
def text : String :=
  "; names\r\n[ a [b] ]\r\nKey : =x#;[\n \u3000second = line\n\t# not a line\nempty=\n\n[]\nK:v"

/-- The document in it. -/
def document : SectionedDocument :=
  ⟨[⟨" a [b] ", [("key", "=x#;[\nsecond = line"), ("empty", "")]⟩, ⟨"", [("k", "v")]⟩]⟩

theorem unusual_document_survives :
    parse text = .ok document ∧ parse document.render = .ok document := by
  have h : parse text = .ok document := by decide +kernel
  exact ⟨h, parse_render_of_parse text document h⟩

end SectionedDocument.Unusual

end TrackCatalog
