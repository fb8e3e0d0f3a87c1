import Mathlib.Data.List.TakeDrop
import TrackCatalog.Proofs.Outcome
import TrackCatalog.Proofs.Text.Lines
import TrackCatalog.Proofs.Text.Trim
import TrackCatalog.Sectioned.Document

/-!
# Reading a document step by step

A line that is accepted does one of four things to the part of the document read so far: nothing, as
a blank line or a comment; it goes on with the newest value; it opens a section; or it adds an entry
to the newest section. `Step` says which. The numbers of lines show only in errors, so they are gone
here, and so are the carriage returns at the ends of lines, which are blanks.

* `SectionedDocument.addLine_eq_ok_iff`: taking in a line is a step.
* `SectionedDocument.addLines_append`, `Steps.append`: runs of lines one behind the other.
* `SectionedDocument.steps_filter_iff`: lines without content do not count.
* `SectionedDocument.parse_eq_ok_iff`: reading a document is a run of steps over its lines.
-/

namespace TrackCatalog.SectionedDocument

open Text (isBlank trimList)

variable {draft draft' draft₁ : Draft} {raw line : List Char} {raws more : List (List Char)}
  {n : Nat}

/-- The line is neither blank nor a comment. -/
def hasContent (raw : List Char) : Bool := !isRemark (trimList raw)

/-- The line does not go on with a value: it is not indented, or there is no value to go on with. -/
def Fresh (draft : Draft) (raw : List Char) : Prop :=
  isIndented raw = true → ∀ s ∈ draft.head?, s.entries = []

/-- What an accepted line does. -/
inductive Step (draft : Draft) (raw : List Char) : Draft → Prop
  /-- Nothing. -/
  | remark (silent : hasContent raw = false) : Step draft raw draft
  /-- It goes on with the newest value. -/
  | more {name key value : String} {entries : List Entry} {older : Draft}
      (content : hasContent raw = true) (indented : isIndented raw = true)
      (held : draft = ⟨name, (key, value) :: entries⟩ :: older) :
      Step draft raw (⟨name, (key, value ++ "\n" ++ .ofList (trimList raw)) :: entries⟩ :: older)
  /-- It opens a section whose name is not taken. -/
  | header {name : String} (fresh : Fresh draft raw)
      (line : trimList raw = '[' :: name.toList ++ [']']) (unused : ∀ s ∈ draft, s.name ≠ name) :
      Step draft raw (⟨name, []⟩ :: draft)
  /-- It adds an entry whose key is not taken in the newest section. -/
  | entry {key name : String} {word value : List Char} {mark : Char} {entries : List Entry}
      {older : Draft} (content : hasContent raw = true) (fresh : Fresh draft raw)
      (start : (trimList raw).head? ≠ some '[') (line : trimList raw = word ++ mark :: value)
      (before : ∀ c ∈ word, isSeparator c = false) (separator : isSeparator mark = true)
      (spelled : key = lowerAscii (.ofList (trimList word))) (nonempty : key ≠ "")
      (held : draft = ⟨name, entries⟩ :: older) (unused : ∀ e ∈ entries, e.1 ≠ key) :
      Step draft raw (⟨name, (key, .ofList (trimList value)) :: entries⟩ :: older)

/-! ## One line -/

theorem isIndented_cons (c : Char) (cs : List Char) :
    isIndented (c :: cs) = true ↔ c = ' ' ∨ c = '\t' := by
  unfold isIndented
  split <;> simp_all

theorem extend?_eq_some_iff :
    extend? draft line = some draft' ↔
      ∃ name key value entries older, draft = ⟨name, (key, value) :: entries⟩ :: older ∧
        draft' = ⟨name, (key, value ++ "\n" ++ .ofList line) :: entries⟩ :: older := by
  unfold extend?
  split
  · next name key value entries older =>
    rw [Option.some_inj]
    constructor
    · rintro rfl
      exact ⟨_, _, _, _, _, rfl, rfl⟩
    · rintro ⟨_, _, _, _, _, hd, rfl⟩
      cases hd
      rfl
  · next hne =>
    refine ⟨fun h => by simp at h, ?_⟩
    rintro ⟨_, _, _, _, _, hd, -⟩
    exact absurd hd (hne _ _ _ _ _)

theorem extend?_eq_none_iff (line : List Char) :
    extend? draft line = none ↔ ∀ s ∈ draft.head?, s.entries = [] := by
  unfold extend?
  split
  · simp
  · next hne =>
    refine ⟨fun _ s hs => ?_, fun _ => rfl⟩
    obtain ⟨older, rfl⟩ := List.head?_eq_some_iff.1 hs
    obtain ⟨name, entries⟩ := s
    cases entries with
    | nil => rfl
    | cons e entries => exact absurd rfl (hne name e.1 e.2 entries older)

theorem openSection_eq_ok_iff {header : List Char} :
    openSection draft n header = .ok draft' ↔
      ∃ name : String, header = name.toList ++ [']'] ∧ (∀ s ∈ draft, s.name ≠ name) ∧
        draft' = ⟨name, []⟩ :: draft := by
  unfold openSection
  split
  · next name hrev =>
    have hheader : header = name.reverse ++ [']'] := by
      rw [← List.reverse_reverse header, hrev, List.reverse_cons]
    -- the line leaves no choice of the name
    have hname : ∀ other : String, header = other.toList ++ [']'] →
        other = .ofList name.reverse := by
      intro other ho
      rw [hheader] at ho
      rw [List.append_cancel_right ho, String.ofList_toList]
    dsimp only
    split
    · next htaken =>
      refine ⟨fun h => (nomatch h), ?_⟩
      rintro ⟨other, ho, hfree, -⟩
      obtain rfl := hname other ho
      obtain ⟨s, hs, he⟩ := List.any_eq_true.1 htaken
      exact absurd (of_decide_eq_true he) (hfree s hs)
    · next hfree =>
      rw [Except.ok.injEq]
      constructor
      · rintro rfl
        refine ⟨_, by rw [hheader, String.toList_ofList], fun s hs he => hfree ?_, rfl⟩
        exact List.any_eq_true.2 ⟨s, hs, decide_eq_true he⟩
      · rintro ⟨other, ho, -, rfl⟩
        rw [hname other ho]
  · next hne =>
    refine ⟨fun h => (nomatch h), ?_⟩
    rintro ⟨name, rfl, -⟩
    exact absurd (by simp) (hne name.toList.reverse)

/-- No section is opened a second time. -/
theorem openSection_of_mem {name : String} (taken : name ∈ draft.map Section.name) :
    openSection draft n (name.toList ++ [']']) = .error (.duplicateSection name) := by
  obtain ⟨s, hs, he⟩ := List.mem_map.1 taken
  have hany : (draft.any fun s => s.name = name) = true :=
    List.any_eq_true.2 ⟨s, hs, decide_eq_true he⟩
  have hheader : (name.toList ++ [']']).reverse = ']' :: name.toList.reverse := by simp
  have hname : String.ofList name.toList.reverse.reverse = name := by simp
  simp only [openSection, hheader, hname, hany, if_true]

/-- A line is cut at its first separator. -/
theorem span_isSeparator_eq_iff {word value : List Char} {mark : Char} :
    line.span (fun c => !isSeparator c) = (word, mark :: value) ↔
      line = word ++ mark :: value ∧ (∀ c ∈ word, isSeparator c = false) ∧
        isSeparator mark = true := by
  rw [List.span_eq_takeWhile_dropWhile, Prod.mk.injEq]
  constructor
  · rintro ⟨ht, hd⟩
    have hline := List.takeWhile_append_dropWhile (p := fun c => !isSeparator c) (l := line)
    rw [ht, hd] at hline
    refine ⟨hline.symm, fun c hc => ?_, ?_⟩
    · rw [← ht] at hc
      simpa using List.mem_takeWhile_imp hc
    · have hne : line.dropWhile (fun c => !isSeparator c) ≠ [] := by simp [hd]
      have := List.head_dropWhile_not _ hne
      simpa [hd] using this
  · rintro ⟨rfl, hword, hmark⟩
    have hall : ∀ c ∈ word, (!isSeparator c) = true := fun c hc => by simp [hword c hc]
    have hstop : (!isSeparator mark) = false := by simp [hmark]
    rw [List.takeWhile_append_of_pos hall, List.dropWhile_append_of_pos hall,
      List.takeWhile_cons_of_neg (by simp [hstop]), List.dropWhile_cons_of_neg (by simp [hstop])]
    exact ⟨List.append_nil _, rfl⟩

theorem addEntry_eq_ok_iff :
    addEntry draft n line = .ok draft' ↔
      ∃ (key name : String) (word value : List Char) (mark : Char) (entries : List Entry)
        (older : Draft), line = word ++ mark :: value ∧ (∀ c ∈ word, isSeparator c = false) ∧
        isSeparator mark = true ∧ key = lowerAscii (.ofList (trimList word)) ∧ key ≠ "" ∧
        draft = ⟨name, entries⟩ :: older ∧ (∀ e ∈ entries, e.1 ≠ key) ∧
        draft' = ⟨name, (key, .ofList (trimList value)) :: entries⟩ :: older := by
  constructor
  · intro h
    unfold addEntry at h
    split at h
    · cases h
    · next word mark value hspan =>
      obtain ⟨hline, hword, hmark⟩ := span_isSeparator_eq_iff.1 hspan
      dsimp only at h
      split at h
      · cases h
      · next name entries older =>
        split at h
        · cases h
        · next hempty =>
          split at h
          · cases h
          · next hfree =>
            cases h
            refine ⟨_, _, word, value, mark, entries, older, hline, hword, hmark, rfl, ?_, rfl,
              fun e he heq => hfree ?_, rfl⟩
            · exact fun h => hempty (String.isEmpty_iff.2 h)
            · exact List.any_eq_true.2 ⟨e, he, decide_eq_true heq⟩
  · rintro ⟨key, name, word, value, mark, entries, older, hline, hword, hmark, rfl, hkey, rfl,
      hfree, rfl⟩
    -- no separator stands before the mark, so this is where the line is cut
    have hspan := span_isSeparator_eq_iff.2 ⟨hline, hword, hmark⟩
    have hany : ¬ (entries.any fun e => e.1 = lowerAscii (.ofList (trimList word))) = true := by
      intro hany
      obtain ⟨e, he, heq⟩ := List.any_eq_true.1 hany
      exact hfree e he (of_decide_eq_true heq)
    have hne : ¬ (lowerAscii (.ofList (trimList word))).isEmpty = true :=
      fun h => hkey (String.isEmpty_iff.1 h)
    unfold addEntry
    simp only [hspan, if_neg hne, if_neg hany]

theorem fresh_iff : Fresh draft raw ↔
    (if isIndented raw then extend? draft (trimList raw) else none) = none := by
  unfold Fresh
  rw [← extend?_eq_none_iff (trimList raw)]
  split <;> simp_all

/-- A header that goes on with no value opens its section. -/
theorem addLine_of_header {header : List Char} (fresh : Fresh draft raw)
    (line : trimList raw = '[' :: header) : addLine draft n raw = openSection draft n header := by
  have hremark : ¬ isRemark (trimList raw) = true := by simp [line, isRemark]
  unfold addLine
  dsimp only
  rw [if_neg hremark, fresh_iff.1 fresh, line]
  rfl

/-- **Taking in a line is a step.** -/
theorem addLine_eq_ok_iff : addLine draft n raw = .ok draft' ↔ Step draft raw draft' := by
  constructor
  · intro h
    unfold addLine at h
    dsimp only at h
    split at h
    · next hremark =>
      cases h
      exact .remark (by simp [hasContent, hremark])
    · next hremark =>
      have hcontent : hasContent raw = true := by simpa [hasContent] using hremark
      split at h
      · next hmore =>
        cases h
        split at hmore
        · next hindented =>
          obtain ⟨name, key, value, entries, older, hheld, rfl⟩ := extend?_eq_some_iff.1 hmore
          exact .more hcontent hindented hheld
        · cases hmore
      · next hmore =>
        have hfresh := fresh_iff.2 hmore
        split at h
        · next header hline =>
          obtain ⟨name, rfl, hfree, rfl⟩ := openSection_eq_ok_iff.1 h
          exact .header hfresh hline hfree
        · next hopen =>
          obtain ⟨key, name, word, value, mark, entries, older, hline, hword, hmark, hkey, hne,
            hheld, hfree, rfl⟩ := addEntry_eq_ok_iff.1 h
          refine .entry hcontent hfresh ?_ hline hword hmark hkey hne hheld hfree
          intro hstart
          obtain ⟨header, hheader⟩ := List.head?_eq_some_iff.1 hstart
          exact hopen header hheader
  · intro h
    cases h with
    | remark hsilent =>
      have hremark : isRemark (trimList raw) = true := by simpa [hasContent] using hsilent
      unfold addLine
      dsimp only
      rw [if_pos hremark]
    | more hcontent hindented hheld =>
      have hremark : ¬ isRemark (trimList raw) = true := by simpa [hasContent] using hcontent
      have hmore : extend? draft (trimList raw) = some _ :=
        extend?_eq_some_iff.2 ⟨_, _, _, _, _, hheld, rfl⟩
      unfold addLine
      dsimp only
      rw [if_neg hremark, if_pos hindented, hmore]
    | header hfresh hline hfree =>
      rw [addLine_of_header hfresh hline]
      exact openSection_eq_ok_iff.2 ⟨_, rfl, hfree, rfl⟩
    | entry hcontent hfresh hstart hline hword hmark hkey hne hheld hfree =>
      have hremark : ¬ isRemark (trimList raw) = true := by simpa [hasContent] using hcontent
      have hadd := (addEntry_eq_ok_iff (n := n)).2
        ⟨_, _, _, _, _, _, _, hline, hword, hmark, hkey, hne, hheld, hfree, rfl⟩
      unfold addLine
      dsimp only
      rw [if_neg hremark, fresh_iff.1 hfresh]
      dsimp only
      split
      · next header hheader => simp [hheader] at hstart
      · exact hadd

/-! ## Runs of lines -/

/-- The steps that the lines take, one after the other. -/
inductive Steps : Draft → List (List Char) → Draft → Prop
  | nil {draft : Draft} : Steps draft [] draft
  | cons {draft draft₁ draft' : Draft} {raw : List Char} {raws : List (List Char)}
      (first : Step draft raw draft₁) (rest : Steps draft₁ raws draft') :
      Steps draft (raw :: raws) draft'

theorem addLines_eq_ok_iff : addLines draft n raws = .ok draft' ↔ Steps draft raws draft' := by
  induction raws generalizing draft n with
  | nil =>
    constructor
    · intro h
      cases h
      exact .nil
    · intro h
      cases h
      rfl
  | cons raw raws ih =>
    rw [addLines]
    constructor
    · intro h
      split at h
      · next draft₁ hfirst => exact .cons (addLine_eq_ok_iff.1 hfirst) (ih.1 h)
      · cases h
    · rintro (_ | ⟨hfirst, hrest⟩)
      rw [addLine_eq_ok_iff.2 hfirst]
      exact ih.2 hrest

/-- **Lines behind other lines** are taken in where those end. The first line that is wrong among
those stays the one that is named. -/
theorem addLines_append (draft : Draft) (n : Nat) (raws more : List (List Char)) :
    addLines draft n (raws ++ more) =
      addLines draft n raws >>= fun draft₁ => addLines draft₁ (n + raws.length) more := by
  induction raws generalizing draft n with
  | nil => rfl
  | cons raw raws ih =>
    rw [List.cons_append, addLines, addLines]
    cases addLine draft n raw with
    | error e => rfl
    | ok draft₁ =>
      have hn : n + (raw :: raws).length = n + 1 + raws.length := by
        rw [List.length_cons]
        omega
      rw [hn]
      exact ih draft₁ (n + 1)

theorem Steps.append (h : Steps draft raws draft₁) (h' : Steps draft₁ more draft') :
    Steps draft (raws ++ more) draft' := by
  induction h with
  | nil => exact h'
  | cons first _ ih => exact .cons first (ih h')

theorem Step.of_silent (h : Step draft raw draft') (hs : hasContent raw = false) :
    draft' = draft := by
  cases h with
  | remark => rfl
  | more hc => simp [hs] at hc
  | header _ hline => simp [hasContent, hline, isRemark] at hs
  | entry hc => simp [hs] at hc

/-- **Lines without content do not count.** -/
theorem steps_filter_iff :
    Steps draft (raws.filter hasContent) draft' ↔ Steps draft raws draft' := by
  induction raws generalizing draft with
  | nil => rw [List.filter_nil]
  | cons raw raws ih =>
    by_cases hc : hasContent raw = true
    · rw [List.filter_cons_of_pos hc]
      constructor
      · rintro (_ | ⟨hfirst, hrest⟩)
        exact .cons hfirst (ih.1 hrest)
      · rintro (_ | ⟨hfirst, hrest⟩)
        exact .cons hfirst (ih.2 hrest)
    · have hs : hasContent raw = false := by simpa using hc
      rw [List.filter_cons_of_neg hc, ih]
      constructor
      · exact fun h => .cons (.remark hs) h
      · rintro (_ | ⟨hfirst, hrest⟩)
        rw [← hfirst.of_silent hs]
        exact hrest

/-! ## Whole texts -/

/-- The carriage return of a line ending does not matter. -/
theorem addLine_append_cr (draft : Draft) (n : Nat) (raw : List Char) :
    addLine draft n (raw ++ ['\r']) = addLine draft n raw := by
  have hcr : Text.AllBlank ['\r'] := by decide
  have htrim : trimList (raw ++ ['\r']) = trimList raw := Text.trimList_append hcr raw
  have hindented : isIndented (raw ++ ['\r']) = isIndented raw := by
    cases raw with
    | nil => rfl
    | cons c raw => rw [List.cons_append, Bool.eq_iff_iff, isIndented_cons, isIndented_cons]
  unfold addLine
  rw [htrim, hindented]

/-- **The lines of a text may be cut at its line feeds alone.** -/
theorem addLines_lines (draft : Draft) (n : Nat) (cs : List Char) :
    addLines draft n (Text.lines '\n' '\r' cs) = addLines draft n (cs.splitOn '\n') := by
  -- on the length of the text: its first line, if one ends in it, and then what follows that line
  induction hlen : cs.length using Nat.strong_induction_on generalizing cs draft n with
  | _ len ih =>
    by_cases hmem : '\n' ∈ cs
    · obtain ⟨l, rest, rfl, hl⟩ := List.eq_append_cons_of_mem hmem
      have hshort : rest.length < len := by
        rw [← hlen, List.length_append, List.length_cons]
        omega
      have hrest (draft₁ : Draft) := ih rest.length hshort draft₁ (n + 1) rest rfl
      have hfirst : addLine draft n (Text.chomp '\n' '\r' (l ++ ['\n'])) = addLine draft n l := by
        rcases Text.eq_chomp_or '\n' '\r' l with h | h
        · rw [← h]
        · conv_rhs => rw [h, addLine_append_cr]
      rw [Text.lines_append_cons hl, List.splitOn_append_cons_self_of_not_mem hl]
      rw [addLines, addLines, hfirst]
      simp only [hrest]
    · rw [Text.lines_of_not_mem hmem, List.splitOn_eq_singleton hmem]
      split
      · next he =>
        -- the only piece of an empty text is a blank line
        rw [he]
        rfl
      · rfl

theorem parse_eq (text : String) :
    parse text = (addLines [] 1 (text.toList.splitOn '\n')).map ofDraft := by
  rw [parse, addLines_lines]

/-- **Reading a document is a run of steps over its lines.** -/
theorem parse_eq_ok_iff {text : String} {d : SectionedDocument} :
    parse text = .ok d ↔
      ∃ draft, Steps [] (text.toList.splitOn '\n') draft ∧ ofDraft draft = d := by
  rw [parse_eq, Except.map_eq_ok_iff]
  simp only [addLines_eq_ok_iff]

end TrackCatalog.SectionedDocument
