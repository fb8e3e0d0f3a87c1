import Mathlib.Data.List.Forall2
import TrackCatalog.Proofs.Files.Operations
import TrackCatalog.Proofs.Record.Spelling
import TrackCatalog.Proofs.Source.Lines
import TrackCatalog.Proofs.Text.Lines
import TrackCatalog.Proofs.Text.Trim

/-!
# Reading line by line

The items of a track source stand for the lines behind its header that are not blank, one for each
and in their order. What an item is depends on the bytes of its line and on the line's number, and
on nothing else in the file: a line that is no text stops no later line from being read.

* `DelimitedSource.recordLines`: the lines that count, with their numbers.
* `TrackSource.Reads`: what a line with a number is read as.
* `TrackSource.reads_bodyLines`: the items are what these lines are read as.
* `TrackSource.items_stand_for_lines`: this, and what comes of reading all tracks at once.
-/

namespace TrackCatalog

variable {line : Bytes}

/-! ## The lines that count -/

/-- Everything that an element of a list has is either kept and related to what becomes of it, or
nothing becomes of it. -/
theorem forall₂_filter_filterMap {α β : Type} {R : α → β → Prop} {p : α → Bool} {f : α → Option β}
    (dropped : ∀ a, p a = false → f a = none) (kept : ∀ a, p a = true → ∃ b, f a = some b ∧ R a b)
    (as : List α) : List.Forall₂ R (as.filter p) (as.filterMap f) := by
  induction as with
  | nil => exact .nil
  | cons a as ih =>
    cases hp : p a with
    | false =>
      rw [List.filter_cons_of_neg (by simp [hp]), List.filterMap_cons_none (dropped a hp)]
      exact ih
    | true =>
      obtain ⟨b, hb, hr⟩ := kept a hp
      rw [List.filter_cons_of_pos hp, List.filterMap_cons_some hb]
      exact .cons hr ih

/-- The elements from a position on. -/
theorem filter_zipIdx {α : Type} (as : List α) (k n : Nat) :
    (as.zipIdx k).filter (fun p => k + n ≤ p.2) = (as.drop n).zipIdx (k + n) := by
  induction as generalizing k n with
  | nil => simp
  | cons a as ih =>
    cases n with
    | zero =>
      rw [List.drop_zero]
      refine List.filter_eq_self.2 fun p hp => ?_
      have hle := List.le_snd_of_mem_zipIdx hp
      simpa using hle
    | succ n =>
      have hk : k + (n + 1) = k + 1 + n := by omega
      rw [List.zipIdx_cons, List.filter_cons_of_neg (by simp), List.drop_succ_cons, hk]
      exact ih (k + 1) n

namespace DelimitedSource

/-- The line is a text of white space. -/
def isBlankLine (line : Bytes) : Bool :=
  (Bytes.text? line).any fun text => text.toList.all Text.isBlank

/-- The lines behind the header that are not blank, each with its number in the file. -/
def recordLines (s : DelimitedSource) (lines : List Bytes) : List (Bytes × Nat) :=
  (lines.zipIdx 1).filter fun (line, number) => s.headerLines < number && !isBlankLine line

/-- The lines that count are those behind the header, without the blank ones. -/
theorem recordLines_eq (s : DelimitedSource) (bytes : Bytes) :
    s.recordLines (Text.lines 10 13 bytes) =
      ((s.bodyLines bytes).filter fun p => !isBlankLine p.1).map fun p => (p.1, p.2 + 1) := by
  set lines := Text.lines 10 13 bytes with hlines
  have hsplit : s.recordLines lines =
      ((lines.zipIdx 1).filter fun p => 1 + s.headerLines ≤ p.2).filter
        fun p => !isBlankLine p.1 := by
    rw [List.filter_filter, recordLines]
    refine List.filter_congr fun p _ => ?_
    rw [Bool.and_comm]
    simp only [Nat.add_comm 1, Nat.succ_le_iff]
  -- lines are numbered from 1 here and from 0 where they are read
  have hshift : (lines.drop s.headerLines).zipIdx (1 + s.headerLines) =
      (s.bodyLines bytes).map fun p => (p.1, p.2 + 1) := by
    rw [Nat.add_comm, List.zipIdx_succ]
    rfl
  rw [hsplit, filter_zipIdx, hshift, List.filter_map]
  rfl

end DelimitedSource

/-! ## What they are read as -/

namespace TrackSource

variable {s : TrackSource}

/-- What a line with a number is read as. -/
inductive Reads (s : TrackSource) : Bytes × Nat → Item Track → Prop
  | notText {line : Bytes} {number : Nat} (torn : Bytes.text? line = none) :
      Reads s (line, number) (.error (.file s.path .invalidText))
  | malformed {line : Bytes} {number : Nat} {text : String} {e : RecordError}
      (decoded : Bytes.text? line = some text)
      (refused : Track.ofLine s.maxNameLen text = .error e) :
      Reads s (line, number) (.error (.malformedRecord s.path number e))
  | track {line : Bytes} {number : Nat} {text : String} {k : Track}
      (decoded : Bytes.text? line = some text) (read : Track.ofLine s.maxNameLen text = .ok k) :
      Reads s (line, number) (.ok k)

theorem reads_of_torn {number : Nat} {item : Item Track} (torn : Bytes.text? line = none) :
    s.Reads (line, number) item ↔ item = .error (.file s.path .invalidText) := by
  constructor
  · intro h
    cases h with
    | notText => rfl
    | malformed decoded | track decoded => simp [torn] at decoded
  · rintro rfl
    exact .notText torn

theorem reads_of_decoded {number : Nat} {item : Item Track} {text : String}
    (decoded : Bytes.text? line = some text) :
    s.Reads (line, number) item ↔ item = s.read number text := by
  constructor
  · intro h
    cases h with
    | notText torn => simp [torn] at decoded
    | malformed decoded' refused =>
      cases decoded.symm.trans decoded'
      rw [read, refused]
      rfl
    | track decoded' hread =>
      cases decoded.symm.trans decoded'
      rw [read, hread]
      rfl
  · rintro rfl
    rw [read]
    cases hread : Track.ofLine s.maxNameLen text with
    | error e => exact .malformed decoded hread
    | ok k => exact .track decoded hread

/-- The bytes of a line and its number leave no choice. -/
theorem Reads.unique {p : Bytes × Nat} {i j : Item Track} (hi : s.Reads p i) (hj : s.Reads p j) :
    i = j := by
  obtain ⟨line, number⟩ := p
  cases htext : Bytes.text? line with
  | none => rw [(reads_of_torn htext).1 hi, (reads_of_torn htext).1 hj]
  | some text => rw [(reads_of_decoded htext).1 hi, (reads_of_decoded htext).1 hj]

theorem lineItem?_of_isBlankLine (i : Nat) (h : DelimitedSource.isBlankLine line = true) :
    s.lineItem? (line, i) = none := by
  obtain ⟨text, htext, hblank⟩ := (Option.any_eq_true _ _).1 h
  rw [lineItem?, DelimitedSource.lineItem?, htext]
  dsimp only
  rw [if_pos (Text.isEmpty_trim_iff.2 hblank)]

/-- A line that is not blank is read, as a line of its number. -/
theorem exists_reads (i : Nat) (h : DelimitedSource.isBlankLine line = false) :
    ∃ item, s.lineItem? (line, i) = some item ∧ s.Reads (line, i + 1) item := by
  rw [lineItem?, DelimitedSource.lineItem?]
  cases htext : Bytes.text? line with
  | none => exact ⟨_, rfl, (reads_of_torn htext).2 rfl⟩
  | some text =>
    have hblank : ¬ (Text.trim text).isEmpty = true := by
      rw [Text.isEmpty_trim_iff]
      simpa [DelimitedSource.isBlankLine, htext] using h
    dsimp only
    rw [if_neg hblank]
    exact ⟨_, rfl, (reads_of_decoded htext).2 rfl⟩

/-- **The items of a file are what its lines are read as**, one for each line that counts. -/
theorem reads_bodyLines (s : TrackSource) (bytes : Bytes) :
    List.Forall₂ s.Reads (s.source.recordLines (Text.lines 10 13 bytes))
      ((s.source.bodyLines bytes).filterMap s.lineItem?) := by
  rw [DelimitedSource.recordLines_eq, List.forall₂_map_left_iff]
  refine forall₂_filter_filterMap (fun p hp => ?_) (fun p hp => ?_) _
  · exact lineItem?_of_isBlankLine p.2 (by simpa using hp)
  · exact exists_reads p.2 (by simpa using hp)

/-- **The items of a track source stand for its lines.** They are what the lines behind the header
that are not blank are read as, one for each and in order, by the bytes of the line and its number.
What the header holds does not matter. All tracks are read at once when no item is an error, and
otherwise the first error is the result. -/
theorem items_stand_for_lines (s : TrackSource) (t : FileTree) (bytes : Bytes)
    (opened : t.open? s.path = .ok (.file bytes)) :
    ∃ lines items, Text.HasLines 10 13 bytes lines ∧ (s.records t).result = .ok items ∧
      List.Forall₂ s.Reads (s.source.recordLines lines) items ∧
      (∀ p i j, s.Reads p i → s.Reads p j → i = j) ∧
      (∀ t' bytes' lines', t'.open? s.path = .ok (.file bytes') →
        Text.HasLines 10 13 bytes' lines' →
        lines'.drop s.source.headerLines = lines.drop s.source.headerLines →
        (s.records t').result = .ok items) ∧
      (∀ ks, (s.readAll t).result = .ok ks ↔ items = ks.map .ok) ∧
      ∀ e, (s.readAll t).result = .error e ↔
        ∃ (before : List Track) (after : List (Item Track)),
          items = before.map .ok ++ .error e :: after := by
  refine ⟨_, _, Text.hasLines_lines 10 13 bytes, records_of_open opened, s.reads_bodyLines bytes,
    fun _ _ _ hi hj => hi.unique hj, fun t' bytes' lines' opened' hlines' hdrop => ?_, fun ks => ?_,
    fun e => ?_⟩
  · have hlines := (Text.hasLines_iff (by decide)).1 hlines'
    rw [records_of_open opened', DelimitedSource.bodyLines, hlines, hdrop]
    rfl
  · rw [readAll_of_open opened]
    exact Item.all_eq_ok_iff
  · rw [readAll_of_open opened]
    exact Item.all_eq_error_iff

namespace Torn

/-- A header that is no text, a blank line, another line that is no text, a line with one field and
a line with a track, which has no ending. -/
def content : Bytes :=
  [0xFF, 10, 32, 13, 10, 0xC3, 10, 120, 10] ++
    Bytes.ofText "aaaaaaaaaaaaaaaaaaaaaaaaaaaaaaaaaaaaaaaa|7|||1|11|||||n|||||"

/-- A file with these lines. -/
def tree : FileTree := FileTree.empty.putFile ["tracks"] content

/-- The source in that file, behind a header of one line. -/
def source : TrackSource := ⟨⟨"tracks", 1⟩, 40⟩

/-- The track on the last line. -/
def track : Track := ⟨.filled 0xAA, some 7, "n", 11, 1, none, none⟩

/-- The line that is no text is the first error, and the lines behind it keep their numbers. -/
theorem later_lines_keep_their_numbers :
    tree.open? source.path = .ok (.file content) ∧
      (source.records tree).result =
        .ok [.error (.file "tracks" .invalidText),
          .error (.malformedRecord "tracks" 4 (.fieldCount 16 1)), .ok track] ∧
      (source.readAll tree).result = .error (.file "tracks" .invalidText) := by
  have hrun : tree.readFile source.path = .ok content ∧ (source.records tree).result =
      .ok ([].map .ok ++ .error (.file "tracks" .invalidText) ::
        [.error (.malformedRecord "tracks" 4 (.fieldCount 16 1)), .ok track]) := by
    decide +kernel
  obtain ⟨hread, hitems⟩ := hrun
  have opened := FileTree.readFile_eq_ok_iff_open?.1 hread
  obtain ⟨lines, items, -, hrecords, -, -, -, -, herror⟩ :=
    items_stand_for_lines source tree content opened
  cases hitems.symm.trans hrecords
  exact ⟨opened, hitems, (herror _).2 ⟨_, _, rfl⟩⟩

end Torn

end TrackSource

end TrackCatalog
