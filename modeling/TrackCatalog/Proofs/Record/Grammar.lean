import TrackCatalog.Proofs.Record.HashText
import TrackCatalog.Proofs.Record.TrackLine

/-!
# The grammar of track lines

A track line has fifteen bars and so sixteen fields. Five of them can be wrong: a hash and three
numbers have to be there, and the music is a number or nothing. They are looked at in a fixed order,
and the first that is wrong is reported. The other fields are taken as they are or do not count.

* `Record.Consists`: the fields of a line, as what stands between its bars.
* `Columns`: the fields of a track line by what they hold.
* `Columns.Holds`, `Columns.FirstFault`: the track in the fields, or what is wrong with them.
* `Track.ofLine_eq_ok_iff`, `Track.ofLine_eq_error_iff`: these are what reading a line yields.
* `Track.ofLine_toLine`: a track that was read is read again from the line it is written as.
-/

namespace TrackCatalog

variable {line line' : String} {fs : List String} {e : RecordError} {k : Track} {maxLen : Nat}

/-! ## Fields -/

namespace Record

/-- The line is these fields with bars between them, and no field holds a bar. -/
def Consists (line : String) (fs : List String) : Prop :=
  line = ofFields fs ∧ ∀ f ∈ fs, delimiter ∉ f.toList

theorem consists_fields (line : String) : Consists line (fields line) := by
  constructor
  · have hpieces : (fields line).map String.toList = line.toList.splitOn delimiter := by
      rw [fields, List.map_map]
      exact List.map_id'' (fun _ => String.toList_ofList) _
    rw [ofFields, hpieces, List.intercalate_splitOn, String.ofList_toList]
  · intro f hf
    obtain ⟨cs, hcs, rfl⟩ := List.mem_map.1 hf
    rw [String.toList_ofList]
    exact Text.not_mem_of_mem_splitOn hcs

/-- **The fields of a line are what it consists of**, and there is no choice. -/
theorem fields_eq_iff (hne : fs ≠ []) : fields line = fs ↔ Consists line fs := by
  constructor
  · rintro rfl
    exact consists_fields line
  · rintro ⟨rfl, hfree⟩
    have hcut : ([delimiter].intercalate (fs.map String.toList)).splitOn delimiter =
        fs.map String.toList := by
      refine List.splitOn_intercalate _ (fun cs hcs => ?_) (by simpa using hne)
      obtain ⟨f, hf, rfl⟩ := List.mem_map.1 hcs
      exact hfree f hf
    rw [fields, ofFields, String.toList_ofList, hcut, List.map_map]
    exact List.map_id'' (fun _ => String.ofList_toList) _

theorem length_fields (line : String) :
    (fields line).length = line.toList.count delimiter + 1 := by
  rw [fields, List.length_map, Text.length_splitOn]

end Record

open Record (Consists)

/-- The fields of a track line that count, as they are written. -/
structure Columns where
  hash : String
  externalId : String
  kind : String
  slot : String
  music : String
  tag : String
  name : String
  version : String

namespace Columns

variable {c c' : Columns} {unused unused' : Fin 8 → String}

/-- All sixteen fields; eight of them do not count. -/
def fields (c : Columns) (unused : Fin 8 → String) : List String :=
  [c.hash, c.externalId, unused 0, unused 1, c.kind, c.slot, c.music, unused 2, unused 3, c.tag,
    c.name, unused 4, c.version, unused 5, unused 6, unused 7]

/-- Any sixteen fields are those of a track line. -/
theorem exists_fields (h : fs.length = 16) : ∃ c unused, fs = fields c unused := by
  match fs, h with
  | [hash, id, a, b, kind, slot, music, c, d, tag, name, e, version, f, g, h], _ =>
    exact ⟨⟨hash, id, kind, slot, music, tag, name, version⟩, [a, b, c, d, e, f, g, h].get, rfl⟩

/-- The text that stands in a number field. -/
def number (c : Columns) : NumberField → String
  | .externalId => c.externalId
  | .slot => c.slot
  | .kind => c.kind
  | .music => c.music

/-- The fields that can be wrong. -/
inductive Column where
  | hash
  | number (field : NumberField)

/-- The order in which they are looked at. -/
def order : List Column :=
  [.number .music, .hash, .number .externalId, .number .slot, .number .kind]

/-- The text is a number: a plus sign or none, and decimal digits of a value below `2 ^ 32`. -/
def IsNumber (text : String) : Prop := ∃ n : UInt32, Numeral n text.toList

/-- The field can be read. Blanks around it do not count. -/
def Fits (c : Columns) : Column → Prop
  | .hash => Hash.IsText (Text.trim c.hash)
  | .number .music => Text.trim c.music = "" ∨ IsNumber (Text.trim c.music)
  | .number field => IsNumber (Text.trim (c.number field))

/-- What is reported of a field that cannot be read. The text of a number is shown as it stands in
the line, but that of the music without the blanks around it. -/
inductive Fault (c : Columns) : Column → RecordError → Prop
  | hash {fault : HexFault} (unfit : fault.Of (Bytes.ofText (Text.trim c.hash))) :
      Fault c .hash (.invalidHash ⟨Text.trim c.hash, fault⟩)
  | music (unfit : ¬ c.Fits (.number .music)) :
      Fault c (.number .music) (.invalidInteger .music (Text.trim c.music))
  | number {field : NumberField} (other : field ≠ .music) (unfit : ¬ c.Fits (.number field)) :
      Fault c (.number field) (.invalidInteger field (c.number field))

/-- What is reported of the first of some fields that cannot be read. -/
inductive FirstFault (c : Columns) : List Column → RecordError → Prop
  | here {column : Column} {columns : List Column} {e : RecordError} (fault : c.Fault column e) :
      FirstFault c (column :: columns) e
  | later {column : Column} {columns : List Column} {e : RecordError} (fits : c.Fits column)
      (rest : FirstFault c columns e) : FirstFault c (column :: columns) e

/-- The track in the fields. -/
structure Holds (c : Columns) (maxLen : Nat) (k : Track) : Prop where
  hash : k.hash.Spelled (Text.trim c.hash).toList
  externalId : ∃ id, k.externalId = some id ∧ Numeral id (Text.trim c.externalId).toList
  kind : Numeral k.kind (Text.trim c.kind).toList
  slot : Numeral k.slot (Text.trim c.slot).toList
  /-- Nothing and 0 mean the same. -/
  music : (Text.trim c.music = "" ∧ k.music = none) ∨
    ∃ n, Numeral n (Text.trim c.music).toList ∧ k.music = if n = 0 then none else some n
  /-- Nothing is taken off the name but what is too long. -/
  name : k.name.toList =
    ((if c.tag = "" then [] else c.tag.toList ++ [' ']) ++ c.name.toList).take maxLen
  version : k.version = if Text.trim c.version = "" then none else some (Text.trim c.version)

/-! ## Reading a field -/

/-- Reading a field yields something just when the field fits, and is refused for its fault. -/
structure Checks {α : Type} (c : Columns) (column : Column) (r : Except RecordError α) : Prop where
  fits : (∃ a, r = .ok a) ↔ c.Fits column
  fault : ∀ e, r = .error e ↔ c.Fault column e

theorem fits_number {field : NumberField} (other : field ≠ .music) :
    c.Fits (.number field) ↔ IsNumber (Text.trim (c.number field)) := by
  cases field with
  | music => exact absurd rfl other
  | externalId | slot | kind => exact Iff.rfl

theorem isNumber_iff {text : String} : IsNumber text ↔ ∃ n, Text.readWord? text = some n := by
  simp only [IsNumber, Text.readWord?_eq_some_iff]

theorem readNumber_eq_ok_iff {field : NumberField} {value : String} {n : UInt32} :
    Record.readNumber field value = .ok n ↔ Numeral n (Text.trim value).toList := by
  rw [← Text.readWord?_eq_some_iff]
  delta Record.readNumber
  cases Text.readWord? (Text.trim value) <;> simp

theorem readNumber_eq_error_iff {field : NumberField} {value : String} :
    Record.readNumber field value = .error e ↔
      ¬ IsNumber (Text.trim value) ∧ e = .invalidInteger field value := by
  rw [isNumber_iff]
  delta Record.readNumber
  cases Text.readWord? (Text.trim value) <;> simp [eq_comm (b := e)]

theorem checks_number (c : Columns) (field : NumberField) (other : field ≠ .music) :
    c.Checks (.number field) (Record.readNumber field (c.number field)) := by
  constructor
  · simp only [readNumber_eq_ok_iff, fits_number other, IsNumber]
  · intro e
    rw [readNumber_eq_error_iff, ← fits_number other]
    constructor
    · rintro ⟨unfit, rfl⟩
      exact .number other unfit
    · rintro (_ | _ | ⟨-, unfit⟩)
      · exact absurd rfl other
      · exact ⟨unfit, rfl⟩

theorem readHash_eq_ok_iff {value : String} {h : Hash} :
    Record.readHash value = .ok h ↔ h.Spelled (Text.trim value).toList := by
  rw [Record.readHash, Except.mapError_eq_ok_iff, Hash.ofHex_eq_ok_iff]

theorem checks_hash (c : Columns) : c.Checks .hash (Record.readHash c.hash) := by
  constructor
  · simp only [Record.readHash, Except.mapError_eq_ok_iff]
    exact Hash.exists_ofHex_iff
  · intro e
    rw [Record.readHash, Except.mapError_eq_error_iff]
    constructor
    · rintro ⟨⟨text, fault⟩, hfault, rfl⟩
      obtain ⟨rfl, hof⟩ := Hash.ofHex_eq_error_iff.1 hfault
      exact .hash hof
    · rintro (hof | _ | _)
      exact ⟨_, Hash.ofHex_eq_error_iff.2 ⟨rfl, hof⟩, rfl⟩

theorem trim_trim (text : String) : Text.trim (Text.trim text) = Text.trim text := by
  rw [Text.trim, Text.trim, String.toList_ofList, Text.trimList_trimList]

theorem readMusic_eq_ok_iff {value : String} {m : Option UInt32} :
    Track.readMusic value = .ok m ↔ (Text.trim value = "" ∧ m = none) ∨
      ∃ n, Numeral n (Text.trim value).toList ∧ m = if n = 0 then none else some n := by
  unfold Track.readMusic
  dsimp only
  by_cases hempty : Text.trim value = ""
  · rw [if_pos (String.isEmpty_iff.2 hempty)]
    constructor
    · intro h
      cases h
      exact .inl ⟨hempty, rfl⟩
    · rintro (⟨-, rfl⟩ | ⟨n, hn, -⟩)
      · rfl
      · exact absurd (String.toList_eq_nil_iff.2 hempty) hn.ne_nil
  · rw [if_neg (fun h => hempty (String.isEmpty_iff.1 h)), Except.map_eq_ok_iff]
    simp only [readNumber_eq_ok_iff, trim_trim, eq_comm (b := m), hempty, false_and, false_or]

theorem readMusic_eq_error_iff {value : String} :
    Track.readMusic value = .error e ↔
      (Text.trim value ≠ "" ∧ ¬ IsNumber (Text.trim value)) ∧
        e = .invalidInteger .music (Text.trim value) := by
  unfold Track.readMusic
  dsimp only
  by_cases hempty : Text.trim value = ""
  · rw [if_pos (String.isEmpty_iff.2 hempty)]
    simp [hempty]
  · rw [if_neg (fun h => hempty (String.isEmpty_iff.1 h)), Except.map_eq_error_iff,
      readNumber_eq_error_iff, trim_trim]
    simp only [ne_eq, hempty, not_false_eq_true, true_and]

theorem checks_music (c : Columns) : c.Checks (.number .music) (Track.readMusic c.music) := by
  constructor
  · simp only [readMusic_eq_ok_iff]
    constructor
    · rintro ⟨m, ⟨hempty, -⟩ | ⟨n, hn, -⟩⟩
      · exact .inl hempty
      · exact .inr ⟨n, hn⟩
    · rintro (hempty | ⟨n, hn⟩)
      · exact ⟨none, .inl ⟨hempty, rfl⟩⟩
      · exact ⟨_, .inr ⟨n, hn, rfl⟩⟩
  · intro e
    rw [readMusic_eq_error_iff, ← not_or]
    constructor
    · rintro ⟨unfit, rfl⟩
      exact .music unfit
    · rintro (_ | unfit | ⟨other, -⟩)
      · exact ⟨unfit, rfl⟩
      · exact absurd rfl other

/-! ## Reading all of them -/

/-- A field is read before the others: it is the first that is wrong, or one of them is. -/
theorem Checks.bind {α β : Type} {column : Column} {columns : List Column}
    {r : Except RecordError α} {f : α → Except RecordError β} (h : c.Checks column r)
    (rest : ∀ a, f a = .error e ↔ c.FirstFault columns e) :
    r >>= f = .error e ↔ c.FirstFault (column :: columns) e := by
  rw [Except.bind_eq_error_iff, h.fault]
  constructor
  · rintro (fault | ⟨a, ha, herror⟩)
    · exact .here fault
    · exact .later (h.fits.1 ⟨a, ha⟩) ((rest a).1 herror)
  · rintro (fault | ⟨fits, hrest⟩)
    · exact .inl fault
    · obtain ⟨a, ha⟩ := h.fits.2 fits
      exact .inr ⟨a, ha, (rest a).2 hrest⟩

theorem toList_displayName (tag name : String) (maxLen : Nat) :
    (displayName tag name maxLen).toList =
      ((if tag = "" then [] else tag.toList ++ [' ']) ++ name.toList).take maxLen := by
  rw [displayName, String.toList_ofList]
  by_cases htag : tag = ""
  · simp [htag]
  · simp [htag, String.isEmpty_iff]

theorem readVersion_eq (value : String) :
    Track.readVersion value = if Text.trim value = "" then none else some (Text.trim value) := by
  simp [Track.readVersion, String.isEmpty_iff]

theorem Fault.unfit {column : Column} (h : c.Fault column e) : ¬ c.Fits column := by
  cases h with
  | hash unfit => exact fun fits => Hash.not_fault_of_isText fits _ unfit
  | music unfit => exact unfit
  | number _ unfit => exact unfit

theorem FirstFault.exists_unfit {columns : List Column} (h : c.FirstFault columns e) :
    ¬ ∀ column, c.Fits column := by
  induction h with
  | here fault => exact fun fits => fault.unfit (fits _)
  | later _ _ ih => exact ih

theorem Holds.fits (h : c.Holds maxLen k) (column : Column) : c.Fits column := by
  match column with
  | .hash => exact Hash.isText_of_spelled h.hash
  | .number .externalId =>
    obtain ⟨id, -, hid⟩ := h.externalId
    exact ⟨id, hid⟩
  | .number .slot => exact ⟨_, h.slot⟩
  | .number .kind => exact ⟨_, h.kind⟩
  | .number .music => exact h.music.imp And.left fun ⟨n, hn, _⟩ => ⟨n, hn⟩

/-- **The fields are read as the track in them.** -/
theorem ofFields_eq_ok_iff :
    Track.ofFields maxLen (c.fields unused) = .ok k ↔ c.Holds maxLen k := by
  simp only [Track.ofFields, fields, Except.bind_eq_ok_iff]
  constructor
  · rintro ⟨music, hmusic, hash, hhash, id, hid, slot, hslot, kind, hkind, hk⟩
    cases hk
    refine ⟨readHash_eq_ok_iff.1 hhash, ⟨id, rfl, readNumber_eq_ok_iff.1 hid⟩,
      readNumber_eq_ok_iff.1 hkind, readNumber_eq_ok_iff.1 hslot, readMusic_eq_ok_iff.1 hmusic,
      toList_displayName c.tag c.name maxLen, ?_⟩
    dsimp only
    exact readVersion_eq c.version
  · rintro ⟨hhash, ⟨id, hid, hidNumber⟩, hkind, hslot, hmusic, hname, hversion⟩
    refine ⟨_, readMusic_eq_ok_iff.2 hmusic, _, readHash_eq_ok_iff.2 hhash, _,
      readNumber_eq_ok_iff.2 hidNumber, _, readNumber_eq_ok_iff.2 hslot, _,
      readNumber_eq_ok_iff.2 hkind, ?_⟩
    have hshown : displayName c.tag c.name maxLen = k.name := by
      rw [← String.toList_inj, toList_displayName, hname]
    rw [hshown, readVersion_eq, ← hversion, ← hid]
    rfl

/-- **The fields are refused for the first of them that cannot be read.** -/
theorem ofFields_eq_error_iff :
    Track.ofFields maxLen (c.fields unused) = .error e ↔ c.FirstFault order e := by
  have hlast (k : Track) : (.ok k : Except RecordError Track) = .error e ↔ c.FirstFault [] e :=
    ⟨fun h => (nomatch h), fun h => (nomatch h)⟩
  have hid := c.checks_number .externalId (by decide)
  have hslot := c.checks_number .slot (by decide)
  have hkind := c.checks_number .kind (by decide)
  exact c.checks_music.bind fun _ => c.checks_hash.bind fun _ => hid.bind fun _ =>
    hslot.bind fun _ => hkind.bind fun _ => hlast _

end Columns

/-! ## Writing and reading again -/

/-- The fields of a track as it is written. -/
def Track.columns (k : Track) : Columns where
  hash := k.hash.toHex
  externalId := writeNumber? k.externalId
  kind := toString k.kind
  slot := toString k.slot
  music := writeNumber? k.music
  tag := ""
  name := k.name
  version := k.version.getD ""

theorem Track.toFields_eq (k : Track) : k.toFields = k.columns.fields fun _ => "" := rfl

namespace Columns

variable {c : Columns} {unused : Fin 8 → String}

theorem numeral_trim_toString (n : UInt32) : Numeral n (Text.trim (toString n)).toList := by
  have hn := numeral_toString n
  rw [Text.trim, String.toList_ofList,
    Text.trimList_eq_self fun _ hc => Text.isBlank_of_mem_numeral hn hc]
  exact hn

theorem spelled_trim_toHex (h : Hash) : h.Spelled (Text.trim h.toHex).toList := by
  have hh := h.spelled_toHex
  rw [Text.trim, String.toList_ofList, Text.trimList_eq_self fun _ hc => hh.isBlank hc]
  exact hh

theorem trim_empty : Text.trim "" = "" := rfl

/-- **The fields of a track that was read hold that track.** -/
theorem Holds.columns (h : c.Holds maxLen k) : k.columns.Holds maxLen k := by
  obtain ⟨id, hid, -⟩ := h.externalId
  constructor
  · exact spelled_trim_toHex k.hash
  · refine ⟨id, hid, ?_⟩
    rw [Track.columns, hid]
    exact numeral_trim_toString id
  · exact numeral_trim_toString k.kind
  · exact numeral_trim_toString k.slot
  · rcases h.music with ⟨-, hm⟩ | ⟨n, -, hm⟩
    · rw [Track.columns, hm]
      exact .inl ⟨trim_empty, rfl⟩
    · by_cases hn : n = 0
      · rw [if_pos hn] at hm
        rw [Track.columns, hm]
        exact .inl ⟨trim_empty, rfl⟩
      · rw [if_neg hn] at hm
        rw [Track.columns, hm]
        exact .inr ⟨n, numeral_trim_toString n, by rw [if_neg hn]⟩
  · rw [Track.columns, if_pos rfl, List.nil_append, h.name, List.take_take, Nat.min_self]
  · have hversion : k.columns.version = Text.trim c.version := by
      rw [Track.columns, h.version]
      split
      · next hempty => exact hempty.symm
      · rfl
    rw [hversion, trim_trim]
    exact h.version

theorem forall_mem_fields {p : String → Prop} :
    (∀ f ∈ c.fields unused, p f) ↔
      (p c.hash ∧ p c.externalId ∧ p c.kind ∧ p c.slot ∧ p c.music ∧ p c.tag ∧ p c.name ∧
        p c.version) ∧ ∀ i, p (unused i) := by
  constructor
  · intro h
    refine ⟨⟨?_, ?_, ?_, ?_, ?_, ?_, ?_, ?_⟩, fun i => ?_⟩
    iterate 8 exact h _ (by simp [fields])
    match i with
    | 0 | 1 | 2 | 3 | 4 | 5 | 6 | 7 => exact h _ (by simp [fields])
  · rintro ⟨⟨hhash, hid, hkind, hslot, hmusic, htag, hname, hversion⟩, hunused⟩
    simp [fields, hhash, hid, hkind, hslot, hmusic, htag, hname, hversion, hunused]

theorem delimiter_not_mem_toString (n : UInt32) : Record.delimiter ∉ (toString n).toList := by
  intro hm
  have hdigits : (toString n).toList = Nat.toDigits 10 n.toNat := Nat.toList_repr
  rw [hdigits] at hm
  have hdigit := Nat.isDigit_of_mem_toDigits (by omega) (by omega) hm
  exact absurd hdigit (by decide)

theorem delimiter_not_mem_writeNumber? (n : Option UInt32) :
    Record.delimiter ∉ (Track.writeNumber? n).toList := by
  cases n with
  | none => simp [Track.writeNumber?]
  | some n => exact delimiter_not_mem_toString n

/-- No field of a track that was read holds a bar. -/
theorem Holds.consists (h : c.Holds maxLen k)
    (free : ∀ f ∈ c.fields unused, Record.delimiter ∉ f.toList) :
    Consists k.toLine (k.columns.fields fun _ => "") := by
  obtain ⟨⟨-, -, -, -, -, htag, hname, hversion⟩, -⟩ := forall_mem_fields.1 free
  have hline : k.toLine = Record.ofFields (k.columns.fields fun _ => "") :=
    congrArg Record.ofFields k.toFields_eq
  refine ⟨hline, forall_mem_fields.2 ⟨⟨fun hm => ?_, delimiter_not_mem_writeNumber? _,
    delimiter_not_mem_toString _, delimiter_not_mem_toString _, delimiter_not_mem_writeNumber? _,
    by simp [Track.columns], fun hm => ?_, fun hm => ?_⟩, by simp⟩⟩
  · have hdigits := Hash.isText_of_spelled k.hash.spelled_toHex
    exact absurd (hdigits.2 _ hm) (by decide)
  · -- the name is what it was read from, and a space
    have hname' : k.columns.name = k.name := rfl
    rw [hname', h.name] at hm
    have hm := List.mem_of_mem_take hm
    rcases List.mem_append.1 hm with hm | hm
    · split at hm
      · simp at hm
      · rcases List.mem_append.1 hm with hm | hm
        · exact htag hm
        · exact absurd hm (by decide)
    · exact hname hm
  · have hversion' : k.columns.version = k.version.getD "" := rfl
    rw [hversion', h.version] at hm
    split at hm
    · simp at hm
    · rw [Option.getD_some, Text.trim, String.toList_ofList] at hm
      exact hversion (Text.mem_of_mem_trimList hm)

end Columns

namespace Track

/-- The fields of a line, if there are sixteen of them. -/
theorem ofLine_of_consists {c : Columns} {unused : Fin 8 → String}
    (h : Consists line (c.fields unused)) :
    ofLine maxLen line = ofFields maxLen (c.fields unused) := by
  rw [ofLine, (Record.fields_eq_iff (by simp [Columns.fields])).2 h]

/-- A line has sixteen fields just when it has fifteen bars. -/
theorem exists_consists_iff (line : String) :
    (∃ (c : Columns) (unused : Fin 8 → String), Consists line (c.fields unused)) ↔
      line.toList.count Record.delimiter = 15 := by
  have hlength := Record.length_fields line
  constructor
  · rintro ⟨c, unused, h⟩
    rw [(Record.fields_eq_iff (by simp [Columns.fields])).2 h] at hlength
    simp only [Columns.fields, List.length_cons, List.length_nil] at hlength
    omega
  · intro h
    have hsixteen : (Record.fields line).length = 16 := by omega
    obtain ⟨c, unused, hfields⟩ := Columns.exists_fields hsixteen
    exact ⟨c, unused, hfields ▸ Record.consists_fields line⟩

theorem ofLine_of_count (h : line.toList.count Record.delimiter ≠ 15) :
    ofLine maxLen line = .error (.fieldCount 16 (line.toList.count Record.delimiter + 1)) := by
  have hlength := Record.length_fields line
  rw [← hlength, ofLine]
  generalize Record.fields line = fs at hlength
  unfold ofFields
  split
  · simp only [List.length_cons, List.length_nil] at hlength
    omega
  · rfl

/-- **The track of a line** is the one in its fields. -/
theorem ofLine_eq_ok_iff :
    ofLine maxLen line = .ok k ↔
      ∃ c unused, Consists line (Columns.fields c unused) ∧ c.Holds maxLen k := by
  constructor
  · intro h
    by_cases hbars : line.toList.count Record.delimiter = 15
    · obtain ⟨c, unused, hc⟩ := (exists_consists_iff line).2 hbars
      rw [ofLine_of_consists hc] at h
      exact ⟨c, unused, hc, Columns.ofFields_eq_ok_iff.1 h⟩
    · rw [ofLine_of_count hbars] at h
      cases h
  · rintro ⟨c, unused, hc, hk⟩
    rw [ofLine_of_consists hc]
    exact Columns.ofFields_eq_ok_iff.2 hk

/-- **A line is refused** for the number of its fields, or for the first that cannot be read. -/
theorem ofLine_eq_error_iff :
    ofLine maxLen line = .error e ↔
      (line.toList.count Record.delimiter ≠ 15 ∧
        e = .fieldCount 16 (line.toList.count Record.delimiter + 1)) ∨
      ∃ c unused, Consists line (Columns.fields c unused) ∧ c.FirstFault Columns.order e := by
  constructor
  · intro h
    by_cases hbars : line.toList.count Record.delimiter = 15
    · obtain ⟨c, unused, hc⟩ := (exists_consists_iff line).2 hbars
      rw [ofLine_of_consists hc] at h
      exact .inr ⟨c, unused, hc, Columns.ofFields_eq_error_iff.1 h⟩
    · rw [ofLine_of_count hbars] at h
      cases h
      exact .inl ⟨hbars, rfl⟩
  · rintro (⟨hbars, rfl⟩ | ⟨c, unused, hc, he⟩)
    · exact ofLine_of_count hbars
    · rw [ofLine_of_consists hc]
      exact Columns.ofFields_eq_error_iff.2 he

/-- **A line is read** just when all its fields fit. -/
theorem exists_ofLine_iff :
    (∃ k, ofLine maxLen line = .ok k) ↔
      ∃ c unused, Consists line (Columns.fields c unused) ∧ ∀ column, c.Fits column := by
  constructor
  · rintro ⟨k, h⟩
    obtain ⟨c, unused, hc, hk⟩ := ofLine_eq_ok_iff.1 h
    exact ⟨c, unused, hc, hk.fits⟩
  · rintro ⟨c, unused, hc, fits⟩
    cases hread : ofLine maxLen line with
    | ok k => exact ⟨k, rfl⟩
    | error e =>
      rw [ofLine_of_consists hc, Columns.ofFields_eq_error_iff] at hread
      exact absurd fits hread.exists_unfit

/-- **A track that was read is read again** from the line it is written as. -/
theorem ofLine_toLine (h : ofLine maxLen line = .ok k) : ofLine maxLen k.toLine = .ok k := by
  obtain ⟨c, unused, hc, hk⟩ := ofLine_eq_ok_iff.1 h
  exact ofLine_eq_ok_iff.2 ⟨k.columns, _, hk.consists hc.2, hk.columns⟩

/-- **Track lines follow a grammar.** A line is read just when it has fifteen bars and all fields
between them fit, and the track is then the one in these fields. Any other line is refused: for the
number of its fields, or else for the first of them that is wrong, in the order music, hash,
external id, slot, kind. The eight fields that do not count change nothing. And what was read is
read again, with the same greatest length of a name, from the line it is written as. -/
theorem ofLine_follows_grammar (maxLen : Nat) (line : String) :
    ((∃ k, ofLine maxLen line = .ok k) ↔
      line.toList.count Record.delimiter = 15 ∧
        ∃ c unused, Consists line (Columns.fields c unused) ∧ ∀ column, c.Fits column) ∧
    (∀ k, ofLine maxLen line = .ok k ↔
      ∃ c unused, Consists line (Columns.fields c unused) ∧ c.Holds maxLen k) ∧
    (∀ e, ofLine maxLen line = .error e ↔
      (line.toList.count Record.delimiter ≠ 15 ∧
        e = .fieldCount 16 (line.toList.count Record.delimiter + 1)) ∨
      ∃ c unused, Consists line (Columns.fields c unused) ∧ c.FirstFault Columns.order e) ∧
    (∀ c unused unused' line', Consists line (Columns.fields c unused) →
      Consists line' (Columns.fields c unused') → ofLine maxLen line' = ofLine maxLen line) ∧
    ∀ k, ofLine maxLen line = .ok k → ofLine maxLen k.toLine = .ok k := by
  refine ⟨?_, fun _ => ofLine_eq_ok_iff, fun _ => ofLine_eq_error_iff,
    fun c unused unused' line' hc hc' => ?_, fun _ => ofLine_toLine⟩
  · rw [exists_ofLine_iff, ← exists_consists_iff]
    constructor
    · rintro ⟨c, unused, hc, fits⟩
      exact ⟨⟨c, unused, hc⟩, c, unused, hc, fits⟩
    · exact fun h => h.2
  · rw [ofLine_of_consists hc, ofLine_of_consists hc']
    rfl

namespace Padded

/-- Fields with blanks around them, where the hash and the music are these. -/
def columns (hash music : String) : Columns :=
  ⟨hash, " +007 ", "1", "11", music, "CT", " größer", " v2 "⟩

/-- A line with them, and with something in the fields that do not count. -/
def text (hash music : String) : String :=
  Record.ofFields ((columns hash music).fields fun _ => "x")

/-- The track in it when the names are cut to six characters. -/
def track : Track := ⟨.filled 0xAA, some 7, "CT  gr", 11, 1, none, some "v2"⟩

theorem consists_text {hash music : String} (hh : Record.delimiter ∉ hash.toList)
    (hm : Record.delimiter ∉ music.toList) :
    Consists (text hash music) ((columns hash music).fields fun _ => "x") := by
  have free : ∀ f ∈ [" +007 ", "1", "11", "CT", " größer", " v2 ", "x"],
      Record.delimiter ∉ f.toList := by decide
  refine ⟨rfl, Columns.forall_mem_fields.2 ⟨⟨hh, ?_, ?_, ?_, hm, ?_, ?_, ?_⟩, fun _ => ?_⟩⟩
  iterate 7 exact free _ (by simp [columns])

theorem holds_columns :
    (columns "AaaaaaaaaaaaaaaaaaaaaaaaaaaaaaaaaaaaaaaA" "\t").Holds 6 track := by
  have hrun : track.hash.Spelled (Text.trim "AaaaaaaaaaaaaaaaaaaaaaaaaaaaaaaaaaaaaaaA").toList ∧
      Text.readWord? (Text.trim " +007 ") = some 7 ∧ Text.readWord? (Text.trim "1") = some 1 ∧
      Text.readWord? (Text.trim "11") = some 11 ∧ Text.trim "\t" = "" ∧
      Text.trim " v2 " = "v2" := by
    decide +kernel
  obtain ⟨hhash, hid, hkind, hslot, hmusic, hversion⟩ := hrun
  exact {
    hash := hhash
    externalId := ⟨7, rfl, Text.readWord?_eq_some_iff.1 hid⟩
    kind := Text.readWord?_eq_some_iff.1 hkind
    slot := Text.readWord?_eq_some_iff.1 hslot
    music := .inl ⟨hmusic, rfl⟩
    name := by decide
    version := by rw [columns, hversion]; rfl }

/-- The padded line is read, and so is the line that the track is written as. Where the hash and the
music are both wrong, the music is reported: its number does not wrap. -/
theorem padded_line_is_read_again :
    ofLine 6 (text "AaaaaaaaaaaaaaaaaaaaaaaaaaaaaaaaaaaaaaaA" "\t") = .ok track ∧
      ofLine 6 track.toLine = .ok track ∧
      ofLine 6 (text "not hex" "4294967296") = .error (.invalidInteger .music "4294967296") := by
  obtain ⟨-, htrack, -, -, hagain⟩ :=
    ofLine_follows_grammar 6 (text "AaaaaaaaaaaaaaaaaaaaaaaaaaaaaaaaaaaaaaaA" "\t")
  obtain ⟨-, -, hrefused, -, -⟩ := ofLine_follows_grammar 6 (text "not hex" "4294967296")
  have hread := (htrack track).2 ⟨_, _, consists_text (by decide) (by decide), holds_columns⟩
  have hmusic : Text.trim "4294967296" = "4294967296" ∧ Text.readWord? "4294967296" = none := by
    decide
  have hunfit : ¬ (columns "not hex" "4294967296").Fits (.number .music) := by
    simp [Columns.Fits, Columns.isNumber_iff, columns, hmusic]
  have hfault := Columns.Fault.music hunfit
  have hshown : Text.trim (columns "not hex" "4294967296").music = "4294967296" := hmusic.1
  rw [hshown] at hfault
  exact ⟨hread, hagain _ hread, (hrefused _).2 (.inr
    ⟨_, _, consists_text (by decide) (by decide), .here hfault⟩)⟩

end Padded

end Track

end TrackCatalog
