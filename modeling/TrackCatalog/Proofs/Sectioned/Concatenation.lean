import Mathlib.Data.List.Basic
import TrackCatalog.Proofs.Sectioned.Steps

/-!
# Texts one behind the other

Two accepted texts, one behind the other, hold the sections of the first and then those of the
second. The second must start at the margin, for an indented line would go on with the last value of
the first. It starts with a header, which ends that value for good: no line behind it reaches into
the first text. What is left between them is the names, of which none may come twice. A text that is
refused stays refused, at the same line and for the same reason, whatever stands behind it.

* `SectionedDocument.join`: the sections of two documents, or the first name that both have.
* `SectionedDocument.addLine_onto`, `addLines_onto`: a line, and a run of lines, on top of sections
  that were there before.
* `SectionedDocument.startsWithHeader_of_parse`: an accepted text starts with a header.
* `SectionedDocument.parse_concatenation`: two texts, one behind the other.
-/

namespace TrackCatalog.SectionedDocument

open Text (trimList)

variable {draft draft' below : Draft} {raw : List Char} {raws : List (List Char)} {name : String}

/-! ## Documents one behind the other -/

/-- The names of the sections. -/
def names (d : SectionedDocument) : List String := d.sections.map Section.name

/-- The sections of a document and then those of another. The first name of the other that the
document has as well is refused. -/
def join (d₁ d₂ : SectionedDocument) : Except DocumentError SectionedDocument :=
  match d₂.names.find? (· ∈ d₁.names) with
  | none => .ok ⟨d₁.sections ++ d₂.sections⟩
  | some name => .error (.duplicateSection name)

/-- The first line of the text that is neither blank nor a comment is not indented. -/
def StartsAtMargin (text : String) : Prop :=
  ∀ raw ∈ (text.toList.splitOn '\n').find? hasContent, isIndented raw = false

instance decidableStartsAtMargin (text : String) : Decidable (StartsAtMargin text) :=
  inferInstanceAs
    (Decidable (∀ raw ∈ (text.toList.splitOn '\n').find? hasContent, isIndented raw = false))

/-- The first line of the text that is neither blank nor a comment is the header of a section. -/
def StartsWithHeader (text : String) : Prop :=
  ∀ raw ∈ (text.toList.splitOn '\n').find? hasContent,
    ∃ name : String, trimList raw = '[' :: name.toList ++ [']']

theorem names_ofDraft (draft : Draft) :
    (ofDraft draft).names = (draft.map Section.name).reverse := by
  simp [names, ofDraft, Function.comp_def]

theorem join_ofDraft_of_disjoint
    (apart : (draft.map Section.name).Disjoint (below.map Section.name)) :
    (ofDraft below).join (ofDraft draft) = .ok (ofDraft (draft ++ below)) := by
  have hnone : (ofDraft draft).names.find? (· ∈ (ofDraft below).names) = none := by
    simp only [names_ofDraft, List.mem_reverse, List.find?_eq_none, decide_eq_true_eq]
    exact fun name hname => apart hname
  rw [join, hnone]
  simp [ofDraft]

/-- The name that was opened last when the others were apart is the first that is refused. -/
theorem join_ofDraft_of_mem (apart : (draft.map Section.name).Disjoint (below.map Section.name))
    (taken : name ∈ below.map Section.name)
    (opened : name :: draft.map Section.name <:+ draft'.map Section.name) :
    (ofDraft below).join (ofDraft draft') = .error (.duplicateSection name) := by
  have hnone : (draft.map Section.name).reverse.find? (· ∈ below.map Section.name) = none := by
    simp only [List.mem_reverse, List.find?_eq_none, decide_eq_true_eq]
    exact fun name hname => apart hname
  have hsome : (name :: draft.map Section.name).reverse.find? (· ∈ below.map Section.name) =
      some name := by
    rw [List.reverse_cons, List.find?_append, hnone, List.find?_cons_of_pos (by simpa using taken)]
    rfl
  -- what is opened later stands behind it
  have hfind : (ofDraft draft').names.find? (· ∈ (ofDraft below).names) = some name := by
    simp only [names_ofDraft, List.mem_reverse]
    exact opened.reverse.find?_eq_some hsome
  rw [join, hfind]

/-! ## On top of earlier sections -/

/-- A line that starts afresh still does with earlier sections below. -/
theorem Fresh.onto (fresh : Fresh draft raw) (margin : draft = [] → isIndented raw = false) :
    Fresh (draft ++ below) raw := by
  intro hi
  cases draft with
  | nil => simp [margin rfl] at hi
  | cons s older => exact fresh hi

/-- Only lines that say nothing leave no section. -/
theorem Step.silent_of_nil (h : Step draft raw draft') (hnil : draft' = []) :
    draft = [] ∧ hasContent raw = false := by
  cases h with
  | remark silent => exact ⟨hnil, silent⟩
  | more | header | entry => cases hnil

/-- A step opens at most one section. -/
theorem Step.names_suffix (h : Step draft raw draft') :
    draft.map Section.name <:+ draft'.map Section.name := by
  cases h with
  | remark => exact List.suffix_rfl
  | more _ _ held =>
    rw [held]
    exact List.suffix_rfl
  | header => exact List.suffix_cons _ _
  | entry _ _ _ _ _ _ _ _ held =>
    rw [held]
    exact List.suffix_rfl

theorem Steps.names_suffix (h : Steps draft raws draft') :
    draft.map Section.name <:+ draft'.map Section.name := by
  induction h with
  | nil => exact List.suffix_rfl
  | cons first _ ih => exact first.names_suffix.trans ih

/-- **A line on top of earlier sections** does what it does without them, unless it opens a section
that is among them. -/
theorem addLine_onto (h : Step draft raw draft')
    (margin : draft = [] → hasContent raw = true → isIndented raw = false)
    (apart : (draft.map Section.name).Disjoint (below.map Section.name)) (n : Nat) :
    ((draft'.map Section.name).Disjoint (below.map Section.name) ∧
        addLine (draft ++ below) n raw = .ok (draft' ++ below)) ∨
      ∃ name ∈ below.map Section.name,
        draft'.map Section.name = name :: draft.map Section.name ∧
          addLine (draft ++ below) n raw = .error (.duplicateSection name) := by
  cases h with
  | remark silent => exact .inl ⟨apart, addLine_eq_ok_iff.2 (.remark silent)⟩
  | more content indented held =>
    subst held
    exact .inl ⟨apart, addLine_eq_ok_iff.2 (.more content indented rfl)⟩
  | @header name fresh line unused =>
    have hcontent : hasContent raw = true := by simp [hasContent, line, isRemark]
    have hfresh : Fresh (draft ++ below) raw := fresh.onto fun hnil => margin hnil hcontent
    -- no other step can meet the names below
    by_cases htaken : name ∈ below.map Section.name
    · refine .inr ⟨name, htaken, rfl, ?_⟩
      rw [addLine_of_header hfresh line]
      refine openSection_of_mem ?_
      rw [List.map_append]
      exact List.mem_append_right _ htaken
    · have hunused : ∀ s ∈ draft ++ below, s.name ≠ name := by
        intro s hs he
        rcases List.mem_append.1 hs with hs | hs
        · exact unused s hs he
        · exact htaken (List.mem_map.2 ⟨s, hs, he⟩)
      exact .inl ⟨List.disjoint_cons_left.2 ⟨htaken, apart⟩,
        addLine_eq_ok_iff.2 (.header hfresh line hunused)⟩
  | entry content fresh start line before separator spelled nonempty held unused =>
    subst held
    have hfresh : Fresh (_ :: _ ++ below) raw :=
      fresh.onto fun hnil => absurd hnil (List.cons_ne_nil _ _)
    exact .inl ⟨apart, addLine_eq_ok_iff.2
      (.entry content hfresh start line before separator spelled nonempty rfl unused)⟩

/-- **Lines on top of earlier sections** add their sections to these. -/
theorem addLines_onto (h : Steps draft raws draft')
    (margin : draft = [] → ∀ raw ∈ raws.find? hasContent, isIndented raw = false)
    (apart : (draft.map Section.name).Disjoint (below.map Section.name)) (n : Nat) :
    (addLines (draft ++ below) n raws).map ofDraft = (ofDraft below).join (ofDraft draft') := by
  -- along the run: the names opened so far are apart from those below, up to the first that is not
  induction h generalizing n with
  | nil =>
    rw [join_ofDraft_of_disjoint apart]
    rfl
  | @cons draft draft₁ draft' raw raws first rest ih =>
    have hfirst : draft = [] → hasContent raw = true → isIndented raw = false := fun hnil hc =>
      margin hnil raw (List.find?_cons_of_pos hc)
    rcases addLine_onto first hfirst apart n with ⟨hapart, hline⟩ | ⟨name, htaken, hopened, hline⟩
    · -- as long as nothing is opened, the first line with content is still to come
      have hmargin : draft₁ = [] → ∀ raw ∈ raws.find? hasContent, isIndented raw = false := by
        intro hnil₁
        obtain ⟨hnil, hsilent⟩ := first.silent_of_nil hnil₁
        have := margin hnil
        rwa [List.find?_cons_of_neg (by simp [hsilent])] at this
      rw [addLines, hline]
      exact ih hmargin hapart (n + 1)
    · have hopened' : name :: draft.map Section.name <:+ draft'.map Section.name :=
        hopened ▸ rest.names_suffix
      rw [addLines, hline, join_ofDraft_of_mem apart htaken hopened']
      rfl

/-! ## Texts one behind the other -/

/-- The first line with content opens a section. -/
theorem Steps.exists_header (h : Steps [] raws draft')
    (first : raws.find? hasContent = some raw) :
    ∃ name : String, trimList raw = '[' :: name.toList ++ [']'] := by
  -- along the lines in front of it, which leave nothing behind
  generalize hdraft : ([] : Draft) = draft at h
  induction h with
  | nil => cases first
  | @cons draft draft₁ draft' raw' raws step rest ih =>
    cases hdraft
    cases hcontent : hasContent raw' with
    | false =>
      rw [List.find?_cons_of_neg (by simp [hcontent])] at first
      exact ih first (step.of_silent hcontent).symm
    | true =>
      rw [List.find?_cons_of_pos hcontent, Option.some_inj] at first
      cases first
      cases step with
      | remark silent => simp [hcontent] at silent
      | header _ line => exact ⟨_, line⟩
      | more _ _ held => cases held
      | entry _ _ _ _ _ _ _ _ held => cases held

/-- **An accepted text starts with a header**, behind blank lines and comments. -/
theorem startsWithHeader_of_parse {text : String} {d : SectionedDocument}
    (h : parse text = .ok d) : StartsWithHeader text := by
  obtain ⟨draft, hsteps, -⟩ := parse_eq_ok_iff.1 h
  exact fun _ first => hsteps.exists_header first

/-- The lines of the second text are taken in where the first ends. -/
theorem parse_append (t₁ t₂ : String) :
    parse (t₁ ++ "\n" ++ t₂) =
      (addLines [] 1 (t₁.toList.splitOn '\n') >>= fun draft =>
        addLines draft (1 + (t₁.toList.splitOn '\n').length) (t₂.toList.splitOn '\n')).map
          ofDraft := by
  have htext : (t₁ ++ "\n" ++ t₂).toList = t₁.toList ++ '\n' :: t₂.toList := by simp
  rw [parse_eq, htext, List.splitOn_append_cons_self, addLines_append]

/-- **Two texts, one behind the other.** When both are accepted and the second starts at the margin,
their documents are joined: the sections of the first stand before those of the second, as each text
alone has them, and the first name of the second that the first has as well is refused. What starts
at the margin is a header then, for no accepted text starts with anything else. When the first is
refused, so are both, with the same error and thus at the same line, whatever the second is. -/
theorem parse_concatenation (t₁ t₂ : String) :
    (∀ d₁ d₂, parse t₁ = .ok d₁ → parse t₂ = .ok d₂ → StartsAtMargin t₂ →
      parse (t₁ ++ "\n" ++ t₂) = d₁.join d₂) ∧
    (∀ d₂, parse t₂ = .ok d₂ → StartsWithHeader t₂) ∧
    ∀ e, parse t₁ = .error e → parse (t₁ ++ "\n" ++ t₂) = .error e := by
  rw [parse_append]
  refine ⟨?_, fun _ h₂ => startsWithHeader_of_parse h₂, ?_⟩
  · intro d₁ d₂ h₁ h₂ margin
    obtain ⟨below, hbelow, rfl⟩ := parse_eq_ok_iff.1 h₁
    obtain ⟨draft, hdraft, rfl⟩ := parse_eq_ok_iff.1 h₂
    rw [addLines_eq_ok_iff.2 hbelow]
    exact addLines_onto hdraft (fun _ => margin) (List.disjoint_nil_left _) _
  · intro e he
    rw [parse_eq, Except.map_eq_error_iff] at he
    rw [he]
    rfl

-- an indented header does not count behind a value
example : parse " [b]" = .ok ⟨[⟨"b", []⟩]⟩ ∧
    parse ("[a]\nk = 1" ++ "\n" ++ " [b]") = .ok ⟨[⟨"a", [("k", "1\n[b]")]⟩]⟩ := by
  decide +kernel

namespace Parts

/-- A section whose last value has two lines. -/
def opening : String := "[a]\nk = 1\n  and"

/-- Two sections behind a comment and a blank line, which are indented. -/
def behind : String := " ;\n \n[b]\nk: 2\n[c]"

/-- Two sections, and the second is in the opening as well. -/
def again : String := "[c]\n[a]\n"

/-- A text with an error in its second line. -/
def torn : String := "[a]\nk"

/-- The sections behind the opening. -/
def later : SectionedDocument := ⟨[⟨"b", [("k", "2")]⟩, ⟨"c", []⟩]⟩

/-- Parts with different names are put together. A name that comes again and an early error are
named. -/
theorem parts_are_put_together :
    parse (opening ++ "\n" ++ behind) = .ok ⟨⟨"a", [("k", "1\nand")]⟩ :: later.sections⟩ ∧
      parse (opening ++ "\n" ++ again) = .error (.duplicateSection "a") ∧
      parse (torn ++ "\n" ++ behind) = .error (.line 2 (.notAssignment "k")) := by
  have hrun : parse opening = .ok ⟨[⟨"a", [("k", "1\nand")]⟩]⟩ ∧
      (parse behind = .ok later ∧ StartsAtMargin behind) ∧
      (parse again = .ok ⟨[⟨"c", []⟩, ⟨"a", []⟩]⟩ ∧ StartsAtMargin again) ∧
      parse torn = .error (.line 2 (.notAssignment "k")) := by
    decide +kernel
  obtain ⟨hopening, ⟨hbehind, hmargin⟩, ⟨hagain, hmargin'⟩, htorn⟩ := hrun
  have hjoined := (parse_concatenation opening behind).1 _ _ hopening hbehind hmargin
  have hrefused := (parse_concatenation opening again).1 _ _ hopening hagain hmargin'
  exact ⟨hjoined, hrefused, (parse_concatenation torn behind).2.2 _ htorn⟩

end Parts

end TrackCatalog.SectionedDocument
