import TrackCatalog.CommandLine.Invocation
import TrackCatalog.Proofs.Pipeline.Fields

/-!
# What a document leaves out

A configuration has twelve leaves, and a document may give any of them. What it leaves out has the
stock value, with two exceptions: a document that names the references without their header gets the
header of any source, and one that names the supplemental source without the place where it can be
had gets none. The options of a build name a source and leave the rest of it as it was.

* `Leaf.given?`: where a document gives a leaf.
* `reads_leaf`: every leaf is read from where the document gives it.
* `leaves_of_parse`: all leaves of an accepted configuration, beside the options of a build.
-/

namespace TrackCatalog.PipelineConfig

open CommandLine (BuildArguments)
open Text (Located)
open Toml (Misfit)
open Toml.Shape (Reads)

variable {c a b : PipelineConfig} {v : Located Toml.Value} {text p : String}

/-! ## Leaves -/

/-- The leaves of a configuration. -/
inductive Leaf where
  | primaryPath
  | primaryHeader
  | supplementalPath
  | supplementalHeader
  | supplementalUrl
  | referencesPath
  | referencesHeader
  | maxLen
  | exclusionFlags
  | dir
  | layout
  | catalog
  deriving DecidableEq

/-- What a leaf holds. -/
inductive Setting where
  | text (s : String)
  | number (n : Nat)
  | layout (l : Layout)
  deriving DecidableEq

namespace Leaf

/-- What a configuration holds at a leaf; a supplemental source and its url may be missing. -/
def value (c : PipelineConfig) : Leaf → Option Setting
  | primaryPath => some (.text c.sources.primary.path)
  | primaryHeader => some (.number c.sources.primary.headerLines)
  | supplementalPath => c.sources.supplemental.map fun o => .text o.path
  | supplementalHeader => c.sources.supplemental.map fun o => .number o.headerLines
  | supplementalUrl => (c.sources.supplemental.bind OptionalSourceConfig.url).map .text
  | referencesPath => some (.text c.sources.aliases.path)
  | referencesHeader => some (.number c.sources.aliases.headerLines)
  | maxLen => some (.number c.names.maxLen)
  | exclusionFlags => some (.text c.aliases.exclusionFlags)
  | dir => some (.text c.output.dir)
  | layout => some (.layout c.output.layout)
  | catalog => some (.text c.output.catalog)

/-- Where a document gives a leaf, if it does. -/
def given? (v : Located Toml.Value) : Leaf → Option (Located Toml.Value)
  | primaryPath => (sourceGiven "primary" v).bind (sourceField "path")
  | primaryHeader => (sourceGiven "primary" v).bind (sourceField "header_lines")
  | supplementalPath => (sourceGiven "supplemental" v).bind (optionalSourceField "path")
  | supplementalHeader => (sourceGiven "supplemental" v).bind (optionalSourceField "header_lines")
  | supplementalUrl => (sourceGiven "supplemental" v).bind (optionalSourceField "url")
  | referencesPath => (sourceGiven "aliases" v).bind (sourceField "path")
  | referencesHeader => (sourceGiven "aliases" v).bind (sourceField "header_lines")
  | maxLen => (configField "names" v).bind fun w => w.item.field? ["max_len"] "max_len"
  | exclusionFlags =>
    (configField "aliases" v).bind fun w => w.item.field? ["exclusion_flags"] "exclusion_flags"
  | dir => (configField "output" v).bind (outputField "dir")
  | layout => (configField "output" v).bind (outputField "mode")
  | catalog => (configField "output" v).bind (outputField "catalog")

/-- Reads what is given for a leaf. -/
def read (w : Located Toml.Value) : Leaf → Except Misfit Setting
  | primaryPath | supplementalPath | referencesPath | dir | catalog =>
    (Toml.Shape.text "path string" w).map Setting.text
  | primaryHeader | supplementalHeader | referencesHeader | maxLen =>
    (Toml.Shape.natural w).map Setting.number
  | supplementalUrl | exclusionFlags => (Toml.Shape.text "a string" w).map Setting.text
  | layout => (readLayout w).map Setting.layout

/-- What a leaf holds is what is given for it. -/
def Holds (leaf : Leaf) (w : Located Toml.Value) (q : Option Setting) : Prop :=
  ∃ s, leaf.read w = .ok s ∧ q = some s

/-- The path of the source that loses the stock value of this leaf when it is named. -/
def lostBy? : Leaf → Option Leaf
  | supplementalUrl => some supplementalPath
  | referencesHeader => some referencesPath
  | _ => none

/-- The document names the source that loses the stock value of the leaf. -/
def isLost (v : Located Toml.Value) (leaf : Leaf) : Bool :=
  (leaf.lostBy?.bind (given? v)).isSome

/-- What a leaf holds in the place of a stock value that is lost. -/
def bare : Leaf → Option Setting
  | supplementalUrl => none
  | referencesHeader => some (.number stockHeaderLines)
  | leaf => leaf.value stock

/-- What a leaf holds when the document leaves it out. -/
def unset (v : Located Toml.Value) (leaf : Leaf) : Option Setting :=
  if leaf.isLost v then leaf.bare else leaf.value stock

/-- Where a stock value is lost, the leaf holds something else. -/
theorem bare_ne_stock {leaf : Leaf} (h : leaf.isLost v) : leaf.bare ≠ leaf.value stock := by
  cases leaf with
  | supplementalUrl => decide
  | referencesHeader => decide
  | _ => cases h

theorem unset_eq_stock_iff {leaf : Leaf} :
    leaf.unset v = leaf.value stock ↔ leaf.isLost v = false := by
  unfold unset
  by_cases h : leaf.isLost v
  · simp [h, bare_ne_stock h]
  · simp [h]

end Leaf

/-- Supplemental sources with the same leaves are the same. -/
theorem supplemental_eq_of_leaves
    (hpath : Leaf.supplementalPath.value a = Leaf.supplementalPath.value b)
    (hheader : Leaf.supplementalHeader.value a = Leaf.supplementalHeader.value b)
    (hurl : Leaf.supplementalUrl.value a = Leaf.supplementalUrl.value b) :
    a.sources.supplemental = b.sources.supplemental := by
  simp only [Leaf.value] at hpath hheader hurl
  cases ha : a.sources.supplemental with
  | none =>
    cases hb : b.sources.supplemental with
    | none => rfl
    | some o => simp [ha, hb] at hpath
  | some o =>
    cases hb : b.sources.supplemental with
    | none => simp [ha, hb] at hpath
    | some o' =>
      rw [ha, hb] at hpath hheader hurl
      have hurls : o.url = o'.url :=
        Option.map_injective (fun _ _ => Setting.text.inj) hurl
      simp only [Option.map_some, Option.some.injEq, Setting.text.injEq, Setting.number.injEq]
        at hpath hheader
      cases o
      cases o'
      cases hpath
      cases hheader
      cases hurls
      rfl

/-- Configurations with the same leaves are the same. -/
theorem eq_of_leaves (h : ∀ leaf : Leaf, leaf.value a = leaf.value b) : a = b := by
  have hsupplemental := supplemental_eq_of_leaves (h .supplementalPath) (h .supplementalHeader)
    (h .supplementalUrl)
  have hpath := h .primaryPath
  have hheader := h .primaryHeader
  have hrefPath := h .referencesPath
  have hrefHeader := h .referencesHeader
  have hmaxLen := h .maxLen
  have hflags := h .exclusionFlags
  have hdir := h .dir
  have hlayout := h .layout
  have hcatalog := h .catalog
  obtain ⟨⟨⟨_, _⟩, _, ⟨_, _⟩⟩, ⟨_⟩, ⟨_⟩, ⟨_, _, _⟩⟩ := a
  obtain ⟨⟨⟨_, _⟩, _, ⟨_, _⟩⟩, ⟨_⟩, ⟨_⟩, ⟨_, _, _⟩⟩ := b
  simp_all [Leaf.value]

/-! ## Reading the leaves -/

theorem reads_primarySource (h : ofValue v = .ok c) :
    Reads (sourceGiven "primary" v) (fun w x => readSource w = .ok x) stock.sources.primary
      c.sources.primary :=
  (reads_sources h).bind SourcesConfig.primary fun _ => reads_primary

theorem reads_supplementalSource (h : ofValue v = .ok c) :
    Reads (sourceGiven "supplemental" v) (fun w x => ∃ o, readOptionalSource w = .ok o ∧ x = some o)
      stock.sources.supplemental c.sources.supplemental :=
  (reads_sources h).bind SourcesConfig.supplemental fun _ => reads_supplemental

theorem reads_referencesSource (h : ofValue v = .ok c) :
    Reads (sourceGiven "aliases" v) (fun w x => readSource w = .ok x) stock.sources.aliases
      c.sources.aliases :=
  (reads_sources h).bind SourcesConfig.aliases fun _ => reads_references

/-- What is read for a leaf is what it holds. -/
theorem holds_of_eq_ok {α : Type} {e : Except Misfit α} {k : α} (put : α → Setting)
    (h : e = .ok k) : ∃ s, e.map put = .ok s ∧ some (put k) = some s :=
  ⟨put k, by rw [h]; rfl, rfl⟩

/-- A part that is read from its field, seen as the value of a leaf. -/
theorem reads_held {α : Type} {given : Option (Located Toml.Value)}
    {e : Located Toml.Value → Except Misfit α} {old new : α} (put : α → Setting)
    (h : Reads given (fun w k => e w = .ok k) old new) :
    Reads given (fun w q => ∃ s, (e w).map put = .ok s ∧ q = some s) (some (put old))
      (some (put new)) :=
  h.map (fun k => some (put k)) fun _ => holds_of_eq_ok put

/-- The document gives the path of every source that it names. -/
theorem isSome_given_path (h : ofValue v = .ok c) :
    (Leaf.supplementalPath.given? v).isSome = (sourceGiven "supplemental" v).isSome ∧
      (Leaf.referencesPath.given? v).isSome = (sourceGiven "aliases" v).isSome := by
  constructor
  · rcases reads_supplementalSource h with ⟨hg, -⟩ | ⟨w, hg, o, ho, -⟩
    · simp [Leaf.given?, hg]
    · obtain ⟨u, hu, -⟩ := path_of_readOptionalSource ho
      simp [Leaf.given?, hg, hu]
  · rcases reads_referencesSource h with ⟨hg, -⟩ | ⟨w, hg, hx⟩
    · simp [Leaf.given?, hg]
    · obtain ⟨u, hu, -⟩ := path_of_readSource hx
      simp [Leaf.given?, hg, hu]

theorem isLost_supplementalUrl (h : ofValue v = .ok c) :
    Leaf.supplementalUrl.isLost v = (sourceGiven "supplemental" v).isSome :=
  (isSome_given_path h).1

theorem isLost_referencesHeader (h : ofValue v = .ok c) :
    Leaf.referencesHeader.isLost v = (sourceGiven "aliases" v).isSome :=
  (isSome_given_path h).2

/-- **Every leaf is read from where the document gives it.** -/
theorem reads_leaf (h : ofValue v = .ok c) (leaf : Leaf) :
    Reads (leaf.given? v) leaf.Holds (leaf.unset v) (leaf.value c) := by
  cases leaf with
  | primaryPath =>
    refine (reads_primarySource h).bind (fun x => some (Setting.text x.path)) fun w hw => .inr ?_
    obtain ⟨u, hu, hpath⟩ := path_of_readSource hw
    exact ⟨u, hu, holds_of_eq_ok Setting.text hpath⟩
  | primaryHeader =>
    exact (reads_primarySource h).bind (fun x => some (Setting.number x.headerLines)) fun w hw =>
      reads_held Setting.number (reads_headerLines hw)
  | supplementalPath =>
    refine (reads_supplementalSource h).bind
      (fun s => s.map fun o => Setting.text o.path) fun w ⟨o, ho, hs⟩ => .inr ?_
    obtain ⟨u, hu, hpath⟩ := path_of_readOptionalSource ho
    rw [hs]
    exact ⟨u, hu, holds_of_eq_ok Setting.text hpath⟩
  | supplementalHeader =>
    refine (reads_supplementalSource h).bind
      (fun s => s.map fun o => Setting.number o.headerLines) fun w ⟨o, ho, hs⟩ => ?_
    rw [hs]
    exact reads_held Setting.number (reads_optionalHeaderLines ho)
  | supplementalUrl =>
    rw [Leaf.unset, isLost_supplementalUrl h]
    refine (reads_supplementalSource h).bind_bare
      (fun s => (s.bind OptionalSourceConfig.url).map Setting.text) none fun w ⟨o, ho, hs⟩ => ?_
    rw [hs]
    refine (reads_url ho).map (fun u => u.map Setting.text) fun _ ⟨url, hurl, hu⟩ => ?_
    rw [hu]
    exact holds_of_eq_ok Setting.text hurl
  | referencesPath =>
    refine (reads_referencesSource h).bind (fun x => some (Setting.text x.path)) fun w hw => .inr ?_
    obtain ⟨u, hu, hpath⟩ := path_of_readSource hw
    exact ⟨u, hu, holds_of_eq_ok Setting.text hpath⟩
  | referencesHeader =>
    rw [Leaf.unset, isLost_referencesHeader h]
    exact (reads_referencesSource h).bind_bare (fun x => some (Setting.number x.headerLines))
      (some (.number stockHeaderLines)) fun w hw =>
        reads_held Setting.number (reads_headerLines hw)
  | maxLen =>
    exact (reads_names h).bind (fun n => some (Setting.number n.maxLen)) fun w hw =>
      reads_held Setting.number (reads_maxLen hw)
  | exclusionFlags =>
    exact (reads_aliases h).bind (fun y => some (Setting.text y.exclusionFlags)) fun w hw =>
      reads_held Setting.text (reads_exclusionFlags hw)
  | dir =>
    exact (reads_output h).bind (fun z => some (Setting.text z.dir)) fun w hw =>
      reads_held Setting.text (reads_dir hw)
  | layout =>
    exact (reads_output h).bind (fun z => some (Setting.layout z.layout)) fun w hw =>
      reads_held Setting.layout (reads_layout hw)
  | catalog =>
    exact (reads_output h).bind (fun z => some (Setting.text z.catalog)) fun w hw =>
      reads_held Setting.text (reads_catalog hw)

/-! ## Options beside documents -/

/-- The arguments of a build without options. -/
def noOptions : BuildArguments where
  config := none
  primary := none
  supplemental := none
  noSupplemental := false
  aliases := none
  out := none
  single := false

/-- The option that puts a path at a leaf. -/
def Leaf.option? (p : String) : Leaf → Option BuildArguments
  | primaryPath => some { noOptions with primary := some p }
  | supplementalPath => some { noOptions with supplemental := some p }
  | referencesPath => some { noOptions with aliases := some p }
  | dir => some { noOptions with out := some p }
  | _ => none

variable {leaf l : Leaf} {args : BuildArguments}

theorem pipelineConfig_of_option? (h : leaf.option? p = some args) (t : FileTree) :
    args.pipelineConfig t = .ok (args.apply stock) := by
  have hconfig : args.config = none := by
    cases leaf <;> cases h <;> rfl
  rw [BuildArguments.pipelineConfig, hconfig]
  rfl

/-- An option changes its leaf only. -/
theorem value_apply_option (h : leaf.option? p = some args) :
    l.value (args.apply stock) = if l = leaf then some (.text p) else l.value stock := by
  cases leaf <;> cases h <;> cases l <;> rfl

/-- If one leaf only is given, it takes with it the stock values that its source alone loses. -/
theorem isLost_iff_of_sole (h : ∀ l : Leaf, (l.given? v).isSome ↔ l = leaf) :
    l.isLost v ↔ l.lostBy? = some leaf := by
  unfold Leaf.isLost
  cases l.lostBy? with
  | none => simp
  | some q => simp [h]

theorem forall_lostBy?_ne_iff :
    (∀ l : Leaf, l.lostBy? ≠ some leaf) ↔ leaf ≠ .supplementalPath ∧ leaf ≠ .referencesPath := by
  constructor
  · intro h
    exact ⟨fun he => h .supplementalUrl (congrArg some he.symm),
      fun he => h .referencesHeader (congrArg some he.symm)⟩
  · intro ⟨hsupplemental, hreferences⟩ l hl
    cases l with
    | supplementalUrl => exact hsupplemental (Option.some.inj hl).symm
    | referencesHeader => exact hreferences (Option.some.inj hl).symm
    | _ => cases hl

/-- A document with one path and the option with this path stand for the same configuration, unless
the path is the one of a source that loses stock values. -/
theorem apply_option_eq_iff (h : ofValue v = .ok c) (hargs : leaf.option? p = some args)
    (hsole : ∀ l : Leaf, (l.given? v).isSome ↔ l = leaf) (hp : leaf.value c = some (.text p)) :
    args.apply stock = c ↔ leaf ≠ .supplementalPath ∧ leaf ≠ .referencesPath := by
  have hunset : ∀ l : Leaf, l ≠ leaf → l.value c = l.unset v := by
    intro l hl
    refine (reads_leaf h l).eq_of_none ?_
    rw [← Option.not_isSome_iff_eq_none, hsole]
    exact hl
  have hlost : ∀ l : Leaf, l.isLost v = false ↔ l.lostBy? ≠ some leaf := by
    intro l
    rw [← Bool.not_eq_true, isLost_iff_of_sole hsole]
  rw [← forall_lostBy?_ne_iff]
  constructor
  · intro he l hl
    have hne : l ≠ leaf := by
      rintro rfl
      cases l <;> cases hl
    have hstock : l.value c = l.value stock := by
      rw [← he, value_apply_option hargs, if_neg hne]
    rw [hunset l hne, Leaf.unset_eq_stock_iff, hlost] at hstock
    exact hstock hl
  · intro hkept
    refine eq_of_leaves fun l => ?_
    rw [value_apply_option hargs]
    split
    · next he =>
      rw [he, hp]
    · next hne =>
      rw [hunset l hne]
      exact (Leaf.unset_eq_stock_iff.2 ((hlost l).2 (hkept l))).symm

/-! ## Accepted configurations -/

/-- A text with its entries as one value. -/
def documentValue (text : String) (es : Toml.Entries) : Located Toml.Value :=
  ⟨⟨text.toList, []⟩, .table .header es⟩

theorem parse_eq_ok (h : parse text = .ok c) :
    ∃ es, Toml.Document.parse text.toList = .ok es ∧ ofValue (documentValue text es) = .ok c := by
  unfold parse at h
  dsimp only at h
  split at h
  · cases h
  · next es hes => exact ⟨es, hes, Except.mapError_eq_ok_iff.1 h⟩

/-- **The leaves of an accepted configuration** are as the document gives them, and where it leaves
one out the stock value stands, unless the document names the source that loses it. A path that a
document gives alone has the effect of the option for it, unless it is such a source. -/
theorem leaves_of_parse (h : parse text = .ok c) :
    ∃ es, Toml.Document.parse text.toList = .ok es ∧
      (∀ leaf : Leaf, Reads (leaf.given? (documentValue text es)) leaf.Holds
        (leaf.unset (documentValue text es)) (leaf.value c)) ∧
      (∀ leaf : Leaf, leaf.given? (documentValue text es) = none →
        (leaf.value c = leaf.value stock ↔ leaf.isLost (documentValue text es) = false)) ∧
      ∀ (leaf : Leaf) (p : String) (args : BuildArguments) (t : FileTree),
        leaf.option? p = some args →
        (∀ l : Leaf, (l.given? (documentValue text es)).isSome ↔ l = leaf) →
        leaf.value c = some (.text p) →
        (args.pipelineConfig t = .ok c ↔ leaf ≠ .supplementalPath ∧ leaf ≠ .referencesPath) := by
  obtain ⟨es, hes, hc⟩ := parse_eq_ok h
  refine ⟨es, hes, reads_leaf hc, fun leaf hnone => ?_, fun leaf p args t hargs hsole hp => ?_⟩
  · rw [(reads_leaf hc leaf).eq_of_none hnone, Leaf.unset_eq_stock_iff]
  · rw [pipelineConfig_of_option? hargs, Except.ok.injEq]
    exact apply_option_eq_iff hc hargs hsole hp

/-! ### Documents with one path -/

/-- A document that gives the path of the primary source only. -/
def namedPrimary : String := "[sources.primary]\npath = \"p\"\n"

/-- A document that gives the path of the references only. -/
def namedReferences : String := "[sources.aliases]\npath = \"p\"\n"

/-- All leaves, in the order of a configuration. -/
def Leaf.all : List Leaf :=
  [primaryPath, primaryHeader, supplementalPath, supplementalHeader, supplementalUrl,
    referencesPath, referencesHeader, maxLen, exclusionFlags, dir, layout, catalog]

theorem Leaf.mem_all (leaf : Leaf) : leaf ∈ all := by
  cases leaf <;> decide

/-- The entries of a text that gives one leaf only, as a run of the parser shows it. -/
theorem exists_sole (text : String) (leaf : Leaf)
    (h : (Toml.Document.parse text.toList).toOption.any fun es =>
      Leaf.all.all fun l => (l.given? (documentValue text es)).isSome == decide (l = leaf)) :
    ∃ es, Toml.Document.parse text.toList = .ok es ∧
      ∀ l : Leaf, (l.given? (documentValue text es)).isSome ↔ l = leaf := by
  cases hes : Toml.Document.parse text.toList with
  | error refusal =>
    rw [hes] at h
    cases h
  | ok es =>
    rw [hes, Except.toOption, Option.any_some, List.all_eq_true] at h
    refine ⟨es, rfl, fun l => ?_⟩
    rw [eq_of_beq (h l l.mem_all), decide_eq_true_eq]

/-- The primary source is named alike by a document and by an option. -/
theorem primary_is_named_alike :
    ∃ c, parse namedPrimary = .ok c ∧
      ∀ t, { noOptions with primary := some "p" }.pipelineConfig t = .ok c := by
  have hc : parse namedPrimary =
      .ok { stock with sources := { stock.sources with primary := ⟨"p", 1⟩ } } := by
    decide +kernel
  obtain ⟨es, hes, hsole⟩ := exists_sole namedPrimary .primaryPath (by decide +kernel)
  obtain ⟨es', hes', -, -, hoption⟩ := leaves_of_parse hc
  cases hes.symm.trans hes'
  exact ⟨_, hc, fun t =>
    (hoption .primaryPath "p" _ t rfl hsole rfl).2 ⟨by decide, by decide⟩⟩

/-- The references are not: the document that names them falls back to the header of any source. -/
theorem named_references_lose_stock_header :
    ∃ c es, parse namedReferences = .ok c ∧ Toml.Document.parse namedReferences.toList = .ok es ∧
      (∀ l : Leaf, (l.given? (documentValue namedReferences es)).isSome ↔ l = .referencesPath) ∧
      Leaf.referencesPath.value c = some (.text "p") ∧
      Leaf.referencesHeader.value c ≠ Leaf.referencesHeader.value stock ∧
      ∀ t, { noOptions with aliases := some "p" }.pipelineConfig t ≠ .ok c := by
  obtain ⟨es, hes, hsole⟩ := exists_sole namedReferences .referencesPath (by decide +kernel)
  refine ⟨{ stock with sources := { stock.sources with aliases := ⟨"p", 1⟩ } }, es,
    by decide +kernel, hes, hsole, rfl, by decide, fun t => ?_⟩
  have hargs : Leaf.referencesPath.option? "p" = some { noOptions with aliases := some "p" } := rfl
  rw [pipelineConfig_of_option? hargs]
  decide

end TrackCatalog.PipelineConfig
