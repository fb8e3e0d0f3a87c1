import TrackCatalog.Proofs.Outcome
import TrackCatalog.Source

/-!
# Items and physical lines

Everything that a source yields goes back to one physical line of its file and bears that line's
number, counted from 1. Lines of the header and blank lines yield nothing but are counted.

* `DelimitedSource.result_items`: how opening a source goes. Only here can a file be missing.
* `DelimitedSource.filterMap_itemsOf`: what is made of the items is made line by line.
* `TrackSource.records_of_open`, `ReferenceSource.records_of_open`: the same for the two sources.
* `Item.all_eq_ok_iff`, `Item.all_eq_error_iff`: all items or the first error.
* `TrackSource.missing_or_holds_or_refuses`: the three ways in which reading all tracks goes.
* `TrackSource.HasLine`, `TrackSource.hasLine_of_holds`: the line that a track is on.
* `ReferenceSource.line_of_reference`, `line_of_error`: the line that a reference or an error is on.
-/

namespace TrackCatalog

variable {α : Type} {t : FileTree} {bytes : Bytes} {node : Node} {e : CatalogError}

/-! ## All items or none -/

namespace Item

variable {items : List (Item α)} {as : List α}

theorem all_eq_ok_iff : Item.all items = .ok as ↔ items = as.map .ok := by
  induction items generalizing as with
  | nil => cases as <;> simp [Item.all]
  | cons i rest ih =>
    cases i with
    | error e => cases as <;> simp [Item.all]
    | ok a =>
      rw [Item.all, Except.map_eq_ok_iff]
      constructor
      · rintro ⟨bs, hbs, rfl⟩
        rw [ih.1 hbs, List.map_cons]
      · intro h
        cases as with
        | nil => cases h
        | cons b bs =>
          cases h
          exact ⟨bs, ih.2 rfl, rfl⟩

theorem all_eq_error_iff :
    Item.all items = .error e ↔
      ∃ (before : List α) (after : List (Item α)), items = before.map .ok ++ .error e :: after := by
  induction items with
  | nil => simp [Item.all]
  | cons i rest ih =>
    cases i with
    | error d =>
      constructor
      · intro h
        cases h
        exact ⟨[], rest, rfl⟩
      · rintro ⟨before, after, h⟩
        cases before with
        | nil =>
          cases h
          rfl
        | cons b before => cases h
    | ok a =>
      have hstep : Item.all (.ok a :: rest) = .error e ↔ Item.all rest = .error e := by
        rw [Item.all]
        cases Item.all rest <;> simp [Except.map]
      rw [hstep, ih]
      constructor
      · rintro ⟨before, after, rfl⟩
        exact ⟨a :: before, after, rfl⟩
      · rintro ⟨before, after, h⟩
        cases before with
        | nil => cases h
        | cons b before =>
          cases h
          exact ⟨before, after, rfl⟩

end Item

/-! ## Lines -/

namespace DelimitedSource

variable {s : DelimitedSource}

theorem result_items (s : DelimitedSource) (t : FileTree) :
    (s.items t).result =
      match t.open? s.path with
      | .error .notFound => .error (.sourceNotFound s.path)
      | .error fault => .error (.file s.path fault)
      | .ok node => .ok (s.itemsOfNode node) := by
  unfold items
  cases t.open? s.path with
  | error fault => cases fault <;> rfl
  | ok node => rfl

theorem result_items_of_open (h : t.open? s.path = .ok node) :
    (s.items t).result = .ok (s.itemsOfNode node) := by
  rw [result_items, h]

/-- The physical lines after the header, each with the number of lines before it. -/
def bodyLines (s : DelimitedSource) (bytes : Bytes) : List (Bytes × Nat) :=
  ((Text.lines 10 13 bytes).drop s.headerLines).zipIdx s.headerLines

theorem mem_bodyLines {line : Bytes} {i : Nat} :
    (line, i) ∈ s.bodyLines bytes ↔
      s.headerLines ≤ i ∧ (Text.lines 10 13 bytes)[i]? = some line := by
  unfold bodyLines
  rw [List.mem_zipIdx_iff_le_and_getElem?_sub, List.getElem?_drop]
  refine and_congr_right fun hi => ?_
  rw [Nat.add_sub_cancel' hi]

/-- What becomes of a line, when `read` says what becomes of a number and a text: a line that is no
text is an error, and a blank one is nothing. -/
def lineItem? (s : DelimitedSource) (read : Nat → String → Option (Item α)) :
    Bytes × Nat → Option (Item α)
  | (line, i) =>
    match Bytes.text? line with
    | none => some (.error (.file s.path .invalidText))
    | some text => if (Text.trim text).isEmpty then none else read (i + 1) text

theorem lineItem?_eq_some_iff {read : Nat → String → Option (Item α)} {line : Bytes} {k : Nat}
    {i : Item α} :
    s.lineItem? read (line, k) = some i ↔
      (Bytes.text? line = none ∧ i = .error (.file s.path .invalidText)) ∨
        ∃ text, Bytes.text? line = some text ∧ (Text.trim text).isEmpty = false ∧
          read (k + 1) text = some i := by
  unfold lineItem?
  dsimp only
  cases Bytes.text? line with
  | none => simp [eq_comm (b := i)]
  | some text =>
    dsimp only
    split
    · next hb => simp [String.isEmpty_iff.1 hb]
    · next hb =>
      rw [String.isEmpty_iff] at hb
      simp [hb]

theorem numberedLines_drop (s : DelimitedSource) (bytes : Bytes) :
    (numberedLines bytes).drop s.headerLines =
      (s.bodyLines bytes).map fun p => (p.2 + 1, p.1) := by
  unfold numberedLines bodyLines
  apply List.ext_getElem?
  intro i
  simp only [List.getElem?_drop, List.getElem?_map, List.getElem?_zipIdx, Nat.zero_add]

/-- **What is made of the items is made line by line.** -/
theorem filterMap_itemsOf (f : Item SourceLine → Option (Item α))
    (read : Nat → String → Option (Item α)) (hok : ∀ n text, f (.ok ⟨n, text⟩) = read n text)
    (herror : ∀ e, f (.error e) = some (.error e)) (bytes : Bytes) :
    (s.itemsOf bytes).filterMap f = (s.bodyLines bytes).filterMap (s.lineItem? read) := by
  unfold itemsOf
  rw [numberedLines_drop, List.filterMap_filterMap, List.filterMap_map]
  congr 1
  funext p
  unfold item? lineItem?
  dsimp only [Function.comp]
  cases Bytes.text? p.1 with
  | none => exact herror _
  | some text =>
    dsimp only
    split
    · rfl
    · exact hok _ text

end DelimitedSource

/-! ## The two sources -/

namespace TrackSource

variable {s : TrackSource}

/-- What becomes of a line of a track source that is not blank. -/
def read (s : TrackSource) (number : Nat) (text : String) : Item Track :=
  (Track.ofLine s.maxNameLen text).mapError (.malformedRecord s.path number)

/-- What becomes of a line of a track source. -/
def lineItem? (s : TrackSource) : Bytes × Nat → Option (Item Track) :=
  s.source.lineItem? fun number text => some (s.read number text)

theorem result_records (s : TrackSource) (t : FileTree) :
    (s.records t).result = (s.source.items t).result.map fun items => items.map s.record := by
  unfold records
  rw [Traced.result_bind]
  rfl

theorem result_readAll (s : TrackSource) (t : FileTree) :
    (s.readAll t).result = (s.records t).result.bind Item.all := by
  unfold readAll
  simp only [Traced.result_bind, Traced.result_ofExcept, Traced.result_note, Traced.result_pure]
  cases (s.records t).result with
  | error e => rfl
  | ok items =>
    dsimp only [Except.bind]
    cases Item.all items <;> rfl

/-- **The tracks of a file, line by line.** -/
theorem records_of_open (h : t.open? s.path = .ok (.file bytes)) :
    (s.records t).result = .ok ((s.source.bodyLines bytes).filterMap s.lineItem?) := by
  have hlines := s.source.filterMap_itemsOf (fun i => some (s.record i))
    (fun number text => some (s.read number text)) (fun _ _ => rfl) (fun _ => rfl) bytes
  rw [List.filterMap_eq_map'] at hlines
  rw [result_records, DelimitedSource.result_items_of_open h]
  exact congrArg Except.ok hlines

/-- The file of the source is read whole: each line behind the header is blank or one of these
tracks, in order. -/
def Holds (s : TrackSource) (t : FileTree) (ks : List Track) : Prop :=
  ∃ bytes, t.open? s.path = .ok (.file bytes) ∧
    (s.source.bodyLines bytes).filterMap s.lineItem? = ks.map .ok

/-- The source is there but cannot be read: it does not open, is a directory, or has a line that is
no text or no track, the first of them with this fault. -/
inductive Refuses (s : TrackSource) (t : FileTree) : CatalogError → Prop
  | unopened {fault : FileFault} (opening : t.open? s.path = .error fault)
      (present : fault ≠ .notFound) : Refuses s t (.file s.path fault)
  | directory {held : Contents} (opening : t.open? s.path = .ok (.dir held)) :
      Refuses s t (.file s.path .isADirectory)
  | line {bytes : Bytes} {before : List Track} {after : List (Item Track)} {e : CatalogError}
      (opening : t.open? s.path = .ok (.file bytes))
      (first : (s.source.bodyLines bytes).filterMap s.lineItem? =
        before.map .ok ++ .error e :: after) : Refuses s t e

variable {ks : List Track}

theorem readAll_of_open (h : t.open? s.path = .ok (.file bytes)) :
    (s.readAll t).result = Item.all ((s.source.bodyLines bytes).filterMap s.lineItem?) := by
  rw [result_readAll, records_of_open h]
  rfl

theorem readAll_of_missing (h : t.open? s.path = .error .notFound) :
    (s.readAll t).result = .error (.sourceNotFound s.path) := by
  change t.open? s.source.path = _ at h
  rw [result_readAll, result_records, DelimitedSource.result_items, h]
  rfl

theorem readAll_of_holds (h : s.Holds t ks) : (s.readAll t).result = .ok ks := by
  obtain ⟨bytes, hopen, hlines⟩ := h
  rw [readAll_of_open hopen]
  exact Item.all_eq_ok_iff.2 hlines

theorem readAll_of_refuses (h : s.Refuses t e) : (s.readAll t).result = .error e := by
  cases h with
  | unopened hopen present =>
    change t.open? s.source.path = _ at hopen
    rw [result_readAll, result_records, DelimitedSource.result_items, hopen]
    split
    · next heq =>
      cases heq
      exact absurd rfl present
    · next heq =>
      cases heq
      rfl
    · next heq => cases heq
  | directory hopen =>
    rw [result_readAll, result_records, DelimitedSource.result_items_of_open hopen]
    rfl
  | line hopen first =>
    rw [readAll_of_open hopen]
    exact Item.all_eq_error_iff.2 ⟨_, _, first⟩

/-- **A track source is missing, is read whole, or refuses.** -/
theorem missing_or_holds_or_refuses (s : TrackSource) (t : FileTree) :
    t.open? s.path = .error .notFound ∨ (∃ ks, s.Holds t ks) ∨ ∃ e, s.Refuses t e := by
  cases hopen : t.open? s.path with
  | error fault =>
    by_cases hf : fault = .notFound
    · exact .inl (by rw [hf])
    · exact .inr (.inr ⟨_, .unopened hopen hf⟩)
  | ok node =>
    cases node with
    | dir held => exact .inr (.inr ⟨_, .directory hopen⟩)
    | file bytes =>
      cases hall : Item.all ((s.source.bodyLines bytes).filterMap s.lineItem?) with
      | ok ks => exact .inr (.inl ⟨ks, bytes, hopen, Item.all_eq_ok_iff.1 hall⟩)
      | error e =>
        obtain ⟨before, after, hfirst⟩ := Item.all_eq_error_iff.1 hall
        exact .inr (.inr ⟨e, .line hopen hfirst⟩)

theorem readAll_eq_ok_iff : (s.readAll t).result = .ok ks ↔ s.Holds t ks := by
  refine ⟨fun h => ?_, readAll_of_holds⟩
  rcases s.missing_or_holds_or_refuses t with hmissing | ⟨ks', hks⟩ | ⟨e, he⟩
  · rw [readAll_of_missing hmissing] at h
    cases h
  · rw [readAll_of_holds hks] at h
    cases h
    exact hks
  · rw [readAll_of_refuses he] at h
    cases h

/-- Behind the header of the file stands a line, not blank, that is read as this track. -/
def HasLine (s : TrackSource) (t : FileTree) (k : Track) : Prop :=
  ∃ bytes i line text, t.open? s.path = .ok (.file bytes) ∧ s.source.headerLines ≤ i ∧
    (Text.lines 10 13 bytes)[i]? = some line ∧ Bytes.text? line = some text ∧
    Text.trim text ≠ "" ∧ Track.ofLine s.maxNameLen text = .ok k

/-- **Each track of a source stands on a line of it.** -/
theorem hasLine_of_holds (h : s.Holds t ks) {k : Track} (hk : k ∈ ks) : s.HasLine t k := by
  obtain ⟨bytes, hopen, hlines⟩ := h
  have hmem : Except.ok k ∈ (s.source.bodyLines bytes).filterMap s.lineItem? := by
    rw [hlines]
    exact List.mem_map_of_mem hk
  obtain ⟨⟨line, i⟩, hbody, hitem⟩ := List.mem_filterMap.1 hmem
  obtain ⟨hi, hline⟩ := DelimitedSource.mem_bodyLines.1 hbody
  rcases DelimitedSource.lineItem?_eq_some_iff.1 hitem with ⟨-, he⟩ | ⟨text, ht, hblank, hread⟩
  · cases he
  · refine ⟨bytes, i, line, text, hopen, hi, hline, ht, ?_, ?_⟩
    · intro hempty
      rw [hempty] at hblank
      cases hblank
    · exact Except.mapError_eq_ok_iff.1 (Option.some.inj hread)

/-- What is wrong with a line is never that a file is missing. -/
theorem ne_sourceNotFound_of_refuses (h : s.Refuses t e) (p : String) : e ≠ .sourceNotFound p := by
  cases h with
  | unopened => exact fun he => by cases he
  | directory => exact fun he => by cases he
  | @line bytes before after _ hopen first =>
    have hmem : Except.error e ∈ (s.source.bodyLines bytes).filterMap s.lineItem? := by
      rw [first]
      exact List.mem_append_right _ List.mem_cons_self
    obtain ⟨⟨line, k⟩, -, hi⟩ := List.mem_filterMap.1 hmem
    rcases DelimitedSource.lineItem?_eq_some_iff.1 hi with ⟨-, hi⟩ | ⟨text, -, -, hread⟩
    · cases hi
      exact fun he => by cases he
    · unfold read at hread
      cases hr : Track.ofLine s.maxNameLen text with
      | ok k =>
        rw [hr] at hread
        cases hread
      | error cause =>
        rw [hr] at hread
        cases hread
        exact fun he => by cases he

end TrackSource

namespace ReferenceSource

variable {s : ReferenceSource}

/-- What becomes of a line of a reference source that is not blank. -/
def read? (s : ReferenceSource) (number : Nat) (text : String) : Option (Item (Nat × Reference)) :=
  if Reference.isRemark text then none
  else some (((Reference.ofLine text).map (number, ·)).mapError (.malformedRecord s.path number))

/-- What becomes of a line of a reference source. -/
def lineItem? (s : ReferenceSource) : Bytes × Nat → Option (Item (Nat × Reference)) :=
  s.source.lineItem? s.read?

theorem result_records (s : ReferenceSource) (t : FileTree) :
    (s.records t).result =
      (s.source.items t).result.map fun items => items.filterMap s.record? := by
  unfold records
  rw [Traced.result_bind]
  rfl

/-- **The references of a file, line by line.** -/
theorem records_of_open (h : t.open? s.path = .ok (.file bytes)) :
    (s.records t).result = .ok ((s.source.bodyLines bytes).filterMap s.lineItem?) := by
  have hlines := s.source.filterMap_itemsOf s.record? s.read? (fun _ _ => rfl) (fun _ => rfl) bytes
  rw [result_records, DelimitedSource.result_items_of_open h]
  exact congrArg Except.ok hlines

/-- What a reference source yields comes from a file, or is the fault of a directory. -/
theorem records_eq_ok {items : List (Item (Nat × Reference))}
    (h : (s.records t).result = .ok items) :
    (∃ bytes, t.open? s.path = .ok (.file bytes) ∧
      items = (s.source.bodyLines bytes).filterMap s.lineItem?) ∨
    items = [.error (.file s.path .isADirectory)] := by
  cases hopen : t.open? s.path with
  | error fault =>
    rw [result_records, DelimitedSource.result_items] at h
    change t.open? s.source.path = _ at hopen
    rw [hopen] at h
    cases fault <;> cases h
  | ok node =>
    cases node with
    | file bytes =>
      rw [records_of_open hopen] at h
      cases h
      exact .inl ⟨bytes, rfl, rfl⟩
    | dir held =>
      rw [result_records, DelimitedSource.result_items_of_open hopen] at h
      cases h
      exact .inr rfl

/-- A reference stands on the physical line whose number it bears. -/
theorem line_of_reference {number : Nat} {r : Reference}
    (h : Except.ok (number, r) ∈ (s.source.bodyLines bytes).filterMap s.lineItem?) :
    ∃ k line text, number = k + 1 ∧ s.source.headerLines ≤ k ∧
      (Text.lines 10 13 bytes)[k]? = some line ∧ Bytes.text? line = some text ∧
      Reference.ofLine text = .ok r := by
  obtain ⟨⟨line, k⟩, hmem, hi⟩ := List.mem_filterMap.1 h
  obtain ⟨hk, hline⟩ := DelimitedSource.mem_bodyLines.1 hmem
  rcases DelimitedSource.lineItem?_eq_some_iff.1 hi with ⟨-, hi⟩ | ⟨text, ht, -, hread⟩
  · cases hi
  · unfold read? at hread
    split at hread
    · cases hread
    · have hok := Except.mapError_eq_ok_iff.1 (Option.some.inj hread)
      obtain ⟨r', hr, hp⟩ := Except.map_eq_ok_iff.1 hok
      cases hp
      exact ⟨k, line, text, rfl, hk, hline, ht, hr⟩

/-- What cannot be read is no text, or is no reference and named by its physical line. -/
theorem line_of_error
    (h : Except.error e ∈ (s.source.bodyLines bytes).filterMap s.lineItem?) :
    ∃ k line, s.source.headerLines ≤ k ∧ (Text.lines 10 13 bytes)[k]? = some line ∧
      (Bytes.text? line = none ∧ e = .file s.path .invalidText ∨
        ∃ text cause, Bytes.text? line = some text ∧ Reference.ofLine text = .error cause ∧
          e = .malformedRecord s.path (k + 1) cause) := by
  obtain ⟨⟨line, k⟩, hmem, hi⟩ := List.mem_filterMap.1 h
  obtain ⟨hk, hline⟩ := DelimitedSource.mem_bodyLines.1 hmem
  refine ⟨k, line, hk, hline, ?_⟩
  rcases DelimitedSource.lineItem?_eq_some_iff.1 hi with ⟨ht, hi⟩ | ⟨text, ht, -, hread⟩
  · cases hi
    exact .inl ⟨ht, rfl⟩
  · unfold read? at hread
    split at hread
    · cases hread
    · cases hr : Reference.ofLine text with
      | ok r =>
        rw [hr] at hread
        cases hread
      | error cause =>
        rw [hr] at hread
        cases hread
        exact .inr ⟨text, cause, ht, hr, rfl⟩

end ReferenceSource

end TrackCatalog
