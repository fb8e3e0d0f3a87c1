import Mathlib.Data.List.Forall2
import Mathlib.Data.List.Nodup
import TrackCatalog.Pack.Config
import TrackCatalog.Proofs.Blob.RoundTrip
import TrackCatalog.Proofs.Record.Spelling
import TrackCatalog.Proofs.Sectioned.Layout

/-!
# How packs are described

The section of the pack itself holds its texts and its lists of hashes, in any order. A list has
commas between its items, and an item is a hash or nothing, with blanks and line breaks around it.
Every other section is named by a hash and holds a slot and a type. However such a document is laid
out, it is read as the pack that is meant, and that pack is what its blob holds.

* `ListText`: how a list of hashes is written.
* `PackConfig.Described`: the documents that describe a pack.
* `PackConfig.parse_of_described`: what is read from them.
* `PackConfig.described_pack_survives`: from the text to the blob and back.
-/

namespace TrackCatalog

open Text (AllBlank isBlank trimList)

/-! ## Lists of hashes -/

/-- The characters are an item of a list: a hash or nothing, and blanks around it. -/
inductive ItemText : Option Hash → List Char → Prop
  | empty {gap : List Char} (blank : AllBlank gap) : ItemText none gap
  | hash {h : Hash} {lead digits trail : List Char} (lead_blank : AllBlank lead)
      (spelled : h.Spelled digits) (trail_blank : AllBlank trail) :
      ItemText (some h) (lead ++ digits ++ trail)

/-- The characters are items with commas between them, and these are the hashes among the items. -/
inductive ListText : List Hash → List Char → Prop
  | last {item : Option Hash} {cs : List Char} (text : ItemText item cs) : ListText item.toList cs
  | more {item : Option Hash} {hashes : List Hash} {cs rest : List Char} (text : ItemText item cs)
      (others : ListText hashes rest) : ListText (item.toList ++ hashes) (cs ++ ',' :: rest)

variable {h : Hash} {hashes : List Hash} {item : Option Hash} {cs : List Char} {s : Section}

theorem ItemText.comma_not_mem (hi : ItemText item cs) : ',' ∉ cs := by
  have hcomma : isBlank ',' = false := by decide
  have hgap : ∀ gap, AllBlank gap → ',' ∉ gap := by
    intro gap hg hm
    rw [hg _ hm] at hcomma
    cases hcomma
  cases hi with
  | empty hblank => exact hgap _ hblank
  | hash hlead hspelled htrail =>
    intro hm
    rcases List.mem_append.1 hm with hm | hm
    · rcases List.mem_append.1 hm with hm | hm
      · exact hgap _ hlead hm
      · -- a comma has no other case, and is no digit
        obtain ⟨n, hn, hlower⟩ := hspelled.exists_hexDigit hm
        have hdigit : ∀ n < 16, ','.toLower ≠ Bytes.hexDigit n := by decide
        exact hdigit n hn hlower
    · exact hgap _ htrail hm

theorem ItemText.trimmed (hi : ItemText item cs) :
    trimList cs = [] ∧ item = none ∨ ∃ h, item = some h ∧ h.Spelled (trimList cs) := by
  cases hi with
  | empty hblank => exact .inl ⟨Text.trimList_eq_nil_iff.2 hblank, rfl⟩
  | @hash h lead digits trail hlead hspelled htrail =>
    refine .inr ⟨h, rfl, ?_⟩
    rw [Text.trimList_pad hlead htrail, Text.trimList_eq_self fun c hc => hspelled.isBlank hc]
    exact hspelled

/-- The items that count among the pieces between commas. -/
def itemsAmong (pieces : List (List Char)) : List String :=
  (pieces.map fun item => String.ofList (trimList item)).filter fun item => !item.isEmpty

theorem itemsAmong_cons (cs : List Char) (pieces : List (List Char)) :
    itemsAmong (cs :: pieces) = itemsAmong [cs] ++ itemsAmong pieces := by
  unfold itemsAmong
  rw [← List.filter_append, ← List.map_append, List.singleton_append]

theorem ItemText.itemsAmong (hi : ItemText item cs) :
    List.Forall₂ (fun text h => h.Spelled text.toList) (itemsAmong [cs]) item.toList := by
  unfold TrackCatalog.itemsAmong
  rw [List.map_singleton]
  rcases hi.trimmed with ⟨htrim, rfl⟩ | ⟨h, rfl, hspelled⟩
  · rw [htrim]
    exact .nil
  · have hne : (!(String.ofList (trimList cs)).isEmpty) = true := by
      rw [Bool.not_eq_true', Bool.eq_false_iff, ne_eq, String.isEmpty_iff,
        ← String.toList_eq_nil_iff, String.toList_ofList]
      exact hspelled.ne_nil
    rw [List.filter_cons_of_pos (by exact hne), List.filter_nil]
    exact .cons (by rwa [String.toList_ofList]) .nil

theorem ListText.itemsAmong (hl : ListText hashes cs) :
    List.Forall₂ (fun text h => h.Spelled text.toList) (itemsAmong (cs.splitOn ',')) hashes := by
  induction hl with
  | last htext =>
    rw [List.splitOn_eq_singleton htext.comma_not_mem]
    exact htext.itemsAmong
  | more htext _ ih =>
    rw [List.splitOn_append_cons_self_of_not_mem htext.comma_not_mem, itemsAmong_cons]
    exact List.rel_append htext.itemsAmong ih

theorem ItemText.length_le (hi : ItemText item cs) : item.toList.length ≤ cs.length := by
  cases hi with
  | empty => exact Nat.zero_le _
  | hash _ hspelled _ =>
    have := List.length_pos_iff.2 hspelled.ne_nil
    simp only [Option.toList_some, List.length_singleton, List.length_append]
    omega

/-- A list holds no more hashes than characters. -/
theorem ListText.length_le (hl : ListText hashes cs) : hashes.length ≤ cs.length := by
  induction hl with
  | last htext => exact htext.length_le
  | more htext _ ih =>
    have := htext.length_le
    rw [List.length_append, List.length_append, List.length_cons]
    omega

/-! ## Sections -/

/-- The text is one line without blanks at its ends. -/
structure OneLine (text : String) : Prop where
  noBreak : '\n' ∉ text.toList
  trimmed : trimList text.toList = text.toList

/-- The value holds the hashes in a list, in one line or in several. -/
structure Lists (hashes : List Hash) (value : String) : Prop where
  form : ValueForm value
  text : ListText hashes value.toList

/-- The section holds what a pack says of itself. -/
inductive PackConfig.InfoSection (c : PackConfig) (s : Section) : Prop
  | intro {race coin balloon : String} (name : s.name = infoSection)
      (entries : s.entries.Perm [("name", c.name), ("author", c.author),
        ("description", c.description), ("race", race), ("coin", coin), ("balloon", balloon)])
      (races : Lists c.race race) (coins : Lists c.coin coin) (balloons : Lists c.balloon balloon)

/-- The section holds an unreleased track. -/
inductive UnreleasedTrack.StubSection (u : UnreleasedTrack) (s : Section) : Prop
  | intro {slot kind : String} (name : u.hash.Spelled s.name.toList)
      (entries : s.entries.Perm [("slot", slot), ("type", kind)])
      (slots : Numeral u.slot slot.toList) (kinds : Numeral u.kind kind.toList)

/-- The document describes the pack: one section is its own, and each of the others holds one of
its unreleased tracks, in order. -/
inductive PackConfig.Described (c : PackConfig) (d : SectionedDocument) : Prop
  | intro {before after : List Section} {info : Section}
      (sections : d.sections = before ++ info :: after) (own : c.InfoSection info)
      (stubs : List.Forall₂ UnreleasedTrack.StubSection c.unreleased (before ++ after))

/-! ## Such documents can be written -/

variable {c : PackConfig} {d : SectionedDocument} {u : UnreleasedTrack} {text key value : String}

/-- The keys of the pack's own section. -/
def infoKeys : List String := ["name", "author", "description", "race", "coin", "balloon"]

/-- The keys of a section that holds an unreleased track. -/
def stubKeys : List String := ["slot", "type"]

theorem keyForm_of_known : ∀ key ∈ infoKeys ++ stubKeys, KeyForm key := by
  intro key hk
  simp only [infoKeys, stubKeys, List.cons_append, List.nil_append, List.mem_cons, List.not_mem_nil,
    or_false] at hk
  rcases hk with rfl | rfl | rfl | rfl | rfl | rfl | rfl | rfl <;>
    exact ⟨by decide, by decide, by decide, by simp [SectionedDocument.isSeparator], by decide,
      by simp⟩

theorem OneLine.valueForm (h : OneLine text) : ValueForm text := .of_line h.noBreak h.trimmed

theorem OneLine.of_isBlank (h : ∀ c ∈ text.toList, isBlank c = false) : OneLine text := by
  refine ⟨fun hm => ?_, Text.trimList_eq_self h⟩
  have hbreak : isBlank '\n' = true := by decide
  rw [h _ hm] at hbreak
  cases hbreak

theorem PackConfig.InfoSection.normal (hs : c.InfoSection s) (hname : OneLine c.name)
    (hauthor : OneLine c.author) (hdescription : OneLine c.description) : s.Normal := by
  obtain @⟨race, coin, balloon, hown, hentries, hrace, hcoin, hballoon⟩ := hs
  have hkeys : (s.entries.map Prod.fst).Perm infoKeys := hentries.map Prod.fst
  refine ⟨by rw [hown]; decide, fun e he => ?_, fun e he => ?_, ?_⟩
  · have hmem := hkeys.mem_iff.1 (List.mem_map_of_mem he)
    exact keyForm_of_known e.1 (List.mem_append_left _ hmem)
  · have hmem := hentries.mem_iff.1 he
    simp only [List.mem_cons, List.not_mem_nil, or_false] at hmem
    rcases hmem with rfl | rfl | rfl | rfl | rfl | rfl
    · exact hname.valueForm
    · exact hauthor.valueForm
    · exact hdescription.valueForm
    · exact hrace.form
    · exact hcoin.form
    · exact hballoon.form
  · rw [hkeys.nodup_iff]
    decide

theorem UnreleasedTrack.StubSection.normal (hs : u.StubSection s) : s.Normal := by
  obtain @⟨slot, kind, hname, hentries, hslot, hkind⟩ := hs
  have hkeys : (s.entries.map Prod.fst).Perm stubKeys := hentries.map Prod.fst
  have hline : OneLine s.name := .of_isBlank fun c hc => hname.isBlank hc
  refine ⟨hline.noBreak, fun e he => ?_, fun e he => ?_, ?_⟩
  · have hmem := hkeys.mem_iff.1 (List.mem_map_of_mem he)
    exact keyForm_of_known e.1 (List.mem_append_right _ hmem)
  · have hmem := hentries.mem_iff.1 he
    simp only [List.mem_cons, List.not_mem_nil, or_false] at hmem
    rcases hmem with rfl | rfl
    · exact (OneLine.of_isBlank fun c hc => Text.isBlank_of_mem_numeral hslot hc).valueForm
    · exact (OneLine.of_isBlank fun c hc => Text.isBlank_of_mem_numeral hkind hc).valueForm
  · rw [hkeys.nodup_iff]
    decide

/-- The names of the sections that hold unreleased tracks are the hashes, up to letter case. -/
theorem map_name_of_stubs {stubs : List UnreleasedTrack} {ss : List Section}
    (h : List.Forall₂ UnreleasedTrack.StubSection stubs ss) :
    (ss.map Section.name).map (fun name => name.toList.map Char.toLower) =
      (stubs.map UnreleasedTrack.hash).map (fun hash => hash.toHex.toList) := by
  induction h with
  | nil => rfl
  | cons first _ ih =>
    obtain ⟨hname, -, -, -⟩ := first
    simp only [List.map_cons, ih]
    exact congrArg (· :: _) hname

theorem nodup_names_of_stubs {stubs : List UnreleasedTrack} {ss : List Section}
    (hn : (stubs.map UnreleasedTrack.hash).Nodup)
    (h : List.Forall₂ UnreleasedTrack.StubSection stubs ss) : (ss.map Section.name).Nodup := by
  have hhex : Function.Injective fun hash : Hash => hash.toHex.toList :=
    fun _ _ he => Hash.toHex_injective (String.toList_inj.1 he)
  refine List.Nodup.of_map (fun name => name.toList.map Char.toLower) ?_
  rw [map_name_of_stubs h]
  exact hn.map hhex

theorem exists_stub {stubs : List UnreleasedTrack} {ss : List Section}
    (h : List.Forall₂ UnreleasedTrack.StubSection stubs ss) (hs : s ∈ ss) :
    ∃ u : UnreleasedTrack, u.StubSection s := by
  induction h with
  | nil => simp at hs
  | @cons u _ _ _ first _ ih =>
    rcases List.mem_cons.1 hs with rfl | hs
    · exact ⟨u, first⟩
    · exact ih hs

theorem name_ne_infoSection (hs : u.StubSection s) : s.name ≠ PackConfig.infoSection := by
  obtain ⟨hname, -, -, -⟩ := hs
  intro he
  have hlength := congrArg List.length hname
  rw [List.length_map, Hash.length_toList_toHex, he] at hlength
  revert hlength
  decide

theorem PackConfig.Described.normal (hd : c.Described d) (hname : OneLine c.name)
    (hauthor : OneLine c.author) (hdescription : OneLine c.description)
    (hstubs : (c.unreleased.map UnreleasedTrack.hash).Nodup) : d.Normal := by
  obtain @⟨before, after, info, hsections, hinfo, hothers⟩ := hd
  constructor
  · intro s hs
    rw [hsections, List.perm_middle.mem_iff] at hs
    rcases List.mem_cons.1 hs with rfl | hs
    · exact hinfo.normal hname hauthor hdescription
    · obtain ⟨u, hu⟩ := exists_stub hothers hs
      exact hu.normal
  · -- where the pack's own section stands among the others is of no matter
    rw [hsections, (List.perm_middle.map Section.name).nodup_iff, List.map_cons, List.nodup_cons]
    refine ⟨fun hm => ?_, nodup_names_of_stubs hstubs hothers⟩
    obtain ⟨s, hs, he⟩ := List.mem_map.1 hm
    obtain ⟨u, hu⟩ := exists_stub hothers hs
    obtain ⟨hown, -, -, -, -⟩ := hinfo
    exact name_ne_infoSection hu (he.trans hown)

/-! ## Reading them -/

theorem find?_eq_some_of_nodup {α β : Type} [DecidableEq β] {f : α → β} {a : α} {as : List α}
    (hn : (as.map f).Nodup) (ha : a ∈ as) : as.find? (fun b => f b = f a) = some a := by
  induction as with
  | nil => simp at ha
  | cons b as ih =>
    rw [List.map_cons, List.nodup_cons] at hn
    rcases List.mem_cons.1 ha with rfl | ha
    · rw [List.find?_cons_of_pos (by simp)]
    · have hne : f b ≠ f a := fun he => hn.1 (he ▸ List.mem_map_of_mem ha)
      rw [List.find?_cons_of_neg (by simpa using hne), ih hn.2 ha]

theorem Section.Normal.require_of_mem (hs : s.Normal) (hkey : lowerAscii key = key)
    (hmem : (key, value) ∈ s.entries) : s.require key = .ok value := by
  have hfind := find?_eq_some_of_nodup hs.nodup hmem
  rw [Section.require, Section.get?, hkey, hfind]
  rfl

theorem SectionedDocument.Normal.require_of_mem (hd : d.Normal) (hmem : s ∈ d.sections) :
    d.require s.name = .ok s := by
  rw [SectionedDocument.require, SectionedDocument.section?, find?_eq_some_of_nodup hd.nodup hmem]

/-- All items are read when each of them is. -/
theorem mapM_eq_ok_iff {ε α β : Type} {f : α → Except ε β} {as : List α} {bs : List β} :
    as.mapM f = .ok bs ↔ List.Forall₂ (fun a b => f a = .ok b) as bs := by
  constructor
  · intro h
    induction as generalizing bs with
    | nil =>
      cases h
      exact .nil
    | cons a as ih =>
      rw [List.mapM_cons] at h
      obtain ⟨b, hb, h⟩ := Except.bind_eq_ok_iff.1 h
      obtain ⟨rest, hrest, h⟩ := Except.bind_eq_ok_iff.1 h
      cases h
      exact .cons hb (ih hrest)
  · intro h
    induction h with
    | nil => rfl
    | cons first _ ih =>
      rw [List.mapM_cons, Except.bind_eq_ok_iff]
      exact ⟨_, first, Except.bind_eq_ok_iff.2 ⟨_, ih, rfl⟩⟩

namespace PackConfig

theorem readHash_of_spelled (hs : h.Spelled text.toList) : readHash s text = .ok h := by
  unfold readHash
  rw [Hash.ofHex_of_spelled hs]
  rfl

theorem readHashes_of_lists (hr : s.require key = .ok value) (hl : Lists hashes value) :
    readHashes s key = .ok hashes := by
  have hitems : (listItems value).mapM (readHash s) = .ok hashes :=
    mapM_eq_ok_iff.2 (hl.text.itemsAmong.imp fun _ _ hs => readHash_of_spelled hs)
  exact Except.bind_eq_ok_iff.2 ⟨_, hr, hitems⟩

theorem requireWord_of_numeral {n : UInt32} (hr : s.require key = .ok value)
    (hv : Numeral n value.toList) : s.requireWord key = .ok n := by
  refine Except.bind_eq_ok_iff.2 ⟨_, hr, ?_⟩
  rw [Text.readWord?_of_numeral hv]
  rfl

theorem readUnreleased_of_stub (hu : u.StubSection s) : readUnreleased s = .ok u := by
  have hs := hu.normal
  obtain @⟨slot, kind, hname, hentries, hslot, hkind⟩ := hu
  have hhash : readHash s (Text.trim s.name) = .ok u.hash := by
    rw [Text.trim, Text.trimList_eq_self fun c hc => hname.isBlank hc, String.ofList_toList]
    exact readHash_of_spelled hname
  have hslots : s.requireWord "slot" = .ok u.slot := by
    refine requireWord_of_numeral (hs.require_of_mem (by decide) ?_) hslot
    exact hentries.mem_iff.2 (by simp)
  have hkinds : s.requireWord "type" = .ok u.kind := by
    refine requireWord_of_numeral (hs.require_of_mem (by decide) ?_) hkind
    exact hentries.mem_iff.2 (by simp)
  exact Except.bind_eq_ok_iff.2 ⟨_, hhash, Except.bind_eq_ok_iff.2 ⟨_, hslots,
    Except.bind_eq_ok_iff.2 ⟨_, hkinds, rfl⟩⟩⟩

/-- The sections that are not the pack's own. -/
theorem filter_sections {before after stubs : List Section} {info : Section}
    (hown : info.name = infoSection) (hstubs : stubs = before ++ after)
    (hnames : ∀ s ∈ stubs, s.name ≠ infoSection) :
    (before ++ info :: after).filter (fun s => s.name ≠ infoSection) = stubs := by
  have hkeep : stubs.filter (fun s => s.name ≠ infoSection) = stubs :=
    List.filter_eq_self.2 fun s hs => by simpa using hnames s hs
  rw [List.filter_append, List.filter_cons_of_neg (by simp [hown]), ← List.filter_append, ← hstubs]
  exact hkeep

/-- **A document that describes a pack is read as that pack.** -/
theorem ofDocument_of_described (hd : c.Described d) (hnormal : d.Normal) :
    ofDocument d = .ok c := by
  obtain @⟨before, after, info, hsections, hinfo, hothers⟩ := hd
  have hmem : info ∈ d.sections := by simp [hsections]
  have hs := hnormal.sections info hmem
  obtain @⟨race, coin, balloon, hown, hentries, hrace, hcoin, hballoon⟩ := hinfo
  have hrequire : d.require infoSection = .ok info := by
    rw [← hown]
    exact hnormal.require_of_mem hmem
  have hstubs : (d.sections.filter fun s => s.name ≠ infoSection).mapM readUnreleased =
      .ok c.unreleased := by
    rw [hsections, filter_sections hown rfl fun s hs => ?_]
    · exact mapM_eq_ok_iff.2 (hothers.flip.imp fun _ _ hu => readUnreleased_of_stub hu)
    · obtain ⟨u, hu⟩ := exists_stub hothers hs
      exact name_ne_infoSection hu
  -- its keys differ, so each is found wherever it stands
  have hvalue : ∀ key value, lowerAscii key = key → (key, value) ∈ [("name", c.name),
      ("author", c.author), ("description", c.description), ("race", race), ("coin", coin),
      ("balloon", balloon)] → info.require key = .ok value :=
    fun key value hkey hm => hs.require_of_mem hkey (hentries.mem_iff.2 hm)
  have hname := hvalue "name" c.name (by decide) (by simp)
  have hauthor := hvalue "author" c.author (by decide) (by simp)
  have hdescription := hvalue "description" c.description (by decide) (by simp)
  have hraces := readHashes_of_lists (hvalue "race" race (by decide) (by simp)) hrace
  have hcoins := readHashes_of_lists (hvalue "coin" coin (by decide) (by simp)) hcoin
  have hballoons := readHashes_of_lists (hvalue "balloon" balloon (by decide) (by simp)) hballoon
  refine Except.bind_eq_ok_iff.2 ⟨_, hrequire, ?_⟩
  refine Except.bind_eq_ok_iff.2 ⟨_, hstubs, ?_⟩
  refine Except.bind_eq_ok_iff.2 ⟨_, hname, ?_⟩
  refine Except.bind_eq_ok_iff.2 ⟨_, hauthor, ?_⟩
  refine Except.bind_eq_ok_iff.2 ⟨_, hdescription, ?_⟩
  refine Except.bind_eq_ok_iff.2 ⟨_, hraces, ?_⟩
  refine Except.bind_eq_ok_iff.2 ⟨_, hcoins, ?_⟩
  exact Except.bind_eq_ok_iff.2 ⟨_, hballoons, rfl⟩

/-! ## From the text to the blob and back -/

/-- A pack is no larger than the text that describes it. -/
theorem Described.fits (hd : c.Described d) (hw : d.Written text)
    (hsize : Codec.IsLength (Bytes.ofText text).length) : c.toPack.Fits := by
  obtain @⟨before, after, info, hsections, hinfo, hothers⟩ := hd
  obtain @⟨race, coin, balloon, -, hentries, hrace, hcoin, hballoon⟩ := hinfo
  have hmem : info ∈ d.sections := by simp [hsections]
  unfold Codec.IsLength at hsize
  have hvalue : ∀ e ∈ [("name", c.name), ("author", c.author), ("description", c.description),
      ("race", race), ("coin", coin), ("balloon", balloon)], e.2.toList.Sublist text.toList :=
    fun e he => hw.sublist hmem (hentries.mem_iff.2 he)
  have hchars := Bytes.length_toList_le text
  have htext : ∀ {value : String}, value.toList.Sublist text.toList → Codec.FitsText value := by
    intro value hsub
    have := Bytes.length_ofText_le hsub
    unfold Codec.FitsText Codec.IsLength
    omega
  have hlist : ∀ {hashes : List Hash} {value : String}, Lists hashes value →
      value.toList.Sublist text.toList → Codec.IsLength hashes.length := by
    intro hashes value hl hsub
    have := hl.text.length_le
    have := hsub.length_le
    unfold Codec.IsLength
    omega
  have hname := hvalue ("name", c.name) (by simp)
  have hauthor := hvalue ("author", c.author) (by simp)
  have hdescription := hvalue ("description", c.description) (by simp)
  have hraces := hvalue ("race", race) (by simp)
  have hcoins := hvalue ("coin", coin) (by simp)
  have hballoons := hvalue ("balloon", balloon) (by simp)
  refine ⟨htext hname, htext hauthor, htext hdescription, hlist hrace hraces, hlist hcoin hcoins,
    hlist hballoon hballoons, ?_, ?_⟩
  · -- a section takes at least one line
    have hcount := hothers.length_eq
    have hlines := hw.length_sections_le
    rw [hsections, List.length_append, List.length_cons] at hlines
    rw [List.length_append] at hcount
    have hstubs : c.toPack.unreleasedTracks.length = c.unreleased.length := List.length_map _
    unfold Codec.IsLength
    omega
  · intro t ht
    obtain ⟨u, -, rfl⟩ := List.mem_map.1 ht
    have hempty : Codec.FitsText "" := by decide
    exact ⟨hempty, fun v hv => by cases hv⟩

/-- **A described pack survives.** Take a pack whose name, author and description are one line each
and whose unreleased tracks have different hashes, a document that describes it, and any text that
this document is written as. That text is read as the pack, and what its blob is read as has the
same texts and lists, and a stub for each unreleased track. -/
theorem described_pack_survives (c : PackConfig) (d : SectionedDocument) (text : String)
    (hname : OneLine c.name) (hauthor : OneLine c.author) (hdescription : OneLine c.description)
    (hstubs : (c.unreleased.map UnreleasedTrack.hash).Nodup) (hd : c.Described d)
    (hw : d.Written text) :
    parse text = .ok c ∧
      ((Bytes.ofText text).length < UInt64.size →
        Blob.decode .pack (Blob.encode .pack c.toPack) = .ok
          { name := c.name
            authorNames := c.author
            description := c.description
            raceTracks := c.race
            coinTracks := c.coin
            balloonTracks := c.balloon
            unreleasedTracks := c.unreleased.map fun u =>
              { hash := u.hash
                externalId := none
                name := ""
                slot := u.slot
                kind := u.kind
                music := none
                version := none } }) := by
  have hnormal := hd.normal hname hauthor hdescription hstubs
  constructor
  · have hread : (SectionedDocument.parse text).mapError ConfigError.document = .ok d :=
      Except.mapError_eq_ok_iff.2 (SectionedDocument.parse_of_written hnormal hw)
    exact Except.bind_eq_ok_iff.2 ⟨d, hread, ofDocument_of_described hd hnormal⟩
  · intro hsize
    exact Blob.decode_encode Codec.pack_roundTrips (hd.fits hw hsize)

namespace Mixed

/-- A pack with two race tracks and an unreleased one. -/
def pack : PackConfig where
  name := "Vanilla"
  author := ""
  description := "[x] = y"
  race := [.filled 0xAA, .filled 0xBB]
  coin := []
  balloon := []
  unreleased := [⟨.filled 0xCC, 11, 1⟩]

/-- Its list of race tracks, in two lines. -/
def race : String :=
  "AAaaAAaaAAaaAAaaAAaaAAaaAAaaAAaaAAaaAAaa,,\nbbbbbbbbbbbbbbbbbbbbBBBBBBBBBBBBBBBBBBBB ,"

/-- The section of its unreleased track. -/
def stub : Section :=
  ⟨"cccccccccccccccccccccccccccccccccccccccC", [("type", "1"), ("slot", "+011")]⟩

/-- Its own section. -/
def info : Section :=
  ⟨"Pack Info", [("name", "Vanilla"), ("coin", ""), ("race", race), ("author", ""),
    ("description", "[x] = y"), ("balloon", ",")]⟩

/-- The lines of a text with the two sections. -/
def lines : List String :=
  ["; packs", "[cccccccccccccccccccccccccccccccccccccccC]", "type: 1", "SLOT=+011", "",
    "[Pack Info]\r", "Name = Vanilla\r", "coin =",
    "race : AAaaAAaaAAaaAAaaAAaaAAaaAAaaAAaaAAaaAAaa,,", "  # more",
    "\tbbbbbbbbbbbbbbbbbbbbBBBBBBBBBBBBBBBBBBBB ,", "AUTHOR:", "description = [x] = y", "balloon=,"]

/-- The text. -/
def layout : String := .ofList ((lines.map String.toList).flatMap fun line => line ++ ['\n'])

theorem lists_race : Lists pack.race race := by
  have hnone : AllBlank [] := by decide
  have hbreak : AllBlank ['\n'] := by decide
  have hspace : AllBlank [' '] := by decide
  have htext := ListText.more
    (@ItemText.hash (.filled 0xAA) [] "AAaaAAaaAAaaAAaaAAaaAAaaAAaaAAaaAAaaAAaa".toList [] hnone
      (by decide +kernel) hnone)
    (.more (.empty hnone) (.more
      (@ItemText.hash (.filled 0xBB) ['\n'] "bbbbbbbbbbbbbbbbbbbbBBBBBBBBBBBBBBBBBBBB".toList [' ']
        hbreak (by decide +kernel) hspace)
      (.last (.empty hnone))))
  refine ⟨⟨by decide +kernel, by decide +kernel⟩, ?_⟩
  convert htext using 1
  · decide +kernel
  · decide +kernel

theorem lists_nil (value : String) (hv : value = "" ∨ value = ",") : Lists [] value := by
  have hnone : AllBlank [] := by decide
  rcases hv with rfl | rfl
  · exact ⟨⟨by decide, by decide⟩, .last (.empty hnone)⟩
  · exact ⟨⟨by decide, by decide⟩, .more (.empty hnone) (.last (.empty hnone))⟩

theorem described : pack.Described ⟨[stub, info]⟩ := by
  have hslot : Numeral 11 "+011".toList := .signed 1
  have hkind : Numeral 1 "1".toList := .unsigned 0
  have hstub : UnreleasedTrack.StubSection ⟨.filled 0xCC, 11, 1⟩ stub :=
    .intro (by decide +kernel) (by decide +kernel) hslot hkind
  have hinfo : pack.InfoSection info :=
    .intro rfl (by decide +kernel) lists_race (lists_nil "" (.inl rfl)) (lists_nil "," (.inr rfl))
  exact @PackConfig.Described.intro pack ⟨[stub, info]⟩ [stub] [] info rfl hinfo (.cons hstub .nil)

theorem written : (⟨[stub, info]⟩ : SectionedDocument).Written layout := by
  have hnone : AllBlank [] := by decide
  have hspace : AllBlank [' '] := by decide
  have hreturn : AllBlank ['\r'] := by decide
  -- an entry in one line: what stands before the value, the value, and what stands behind it
  have hentry : ∀ (key value : String) (word gap lead trail : List Char) (mark : Char),
      value.toList.splitOn '\n' = [value.toList] → word.map Char.toLower = key.toList →
      AllBlank gap → SectionedDocument.isSeparator mark = true → AllBlank lead → AllBlank trail →
      Entry.Written (key, value) [word ++ gap ++ mark :: (lead ++ value.toList ++ trail)] :=
    fun _ _ _ _ _ _ _ hcut hword hgap hmark hlead htrail =>
      .intro hcut (.intro hword hgap hmark hlead htrail) .nil
  have hfirst := @Assigns.intro "race" "AAaaAAaaAAaaAAaaAAaaAAaaAAaaAAaaAAaaAAaa,,".toList
    "race".toList [' '] [' '] [] ':' rfl hspace rfl hspace hnone
  have hmore := @Continues.intro "bbbbbbbbbbbbbbbbbbbbBBBBBBBBBBBBBBBBBBBB ,".toList '\t' [] [] rfl
    hnone hnone
  have hcut : race.toList.splitOn '\n' = ["AAaaAAaaAAaaAAaaAAaaAAaaAAaaAAaaAAaaAAaa,,".toList,
      "bbbbbbbbbbbbbbbbbbbbBBBBBBBBBBBBBBBBBBBB ,".toList] := by
    decide +kernel
  have hrace : Entry.Written ("race", race) _ := .intro hcut hfirst (.cons hmore .nil)
  have hstub : Section.Written stub _ :=
    .intro (.intro hnone)
      (.cons (hentry "type" "1" "type".toList [] [' '] [] ':' rfl rfl hnone rfl hspace hnone)
        (.cons (hentry "slot" "+011" "SLOT".toList [] [] [] '=' rfl rfl hnone rfl hnone hnone)
          .nil))
  have hinfo : Section.Written info _ :=
    .intro (.intro hreturn)
      (.cons (hentry "name" "Vanilla" "Name".toList [' '] [' '] ['\r'] '=' rfl rfl hspace rfl hspace
          hreturn)
        (.cons (hentry "coin" "" "coin".toList [' '] [] [] '=' rfl rfl hspace rfl hnone hnone)
          (.cons hrace
            (.cons (hentry "author" "" "AUTHOR".toList [] [] [] ':' rfl rfl hnone rfl hnone hnone)
              (.cons (hentry "description" "[x] = y" "description".toList [' '] [' '] [] '=' rfl rfl
                  hspace rfl hspace hnone)
                (.cons (hentry "balloon" "," "balloon".toList [] [] [] '=' rfl rfl hnone rfl hnone
                  hnone) .nil))))))
  have hblocks : InBlocks Section.Written [stub, info] _ := .cons hstub (.cons hinfo .nil)
  have hbreak : ∀ line ∈ lines.map String.toList, '\n' ∉ line := by decide +kernel
  unfold SectionedDocument.Written
  rw [layout, String.toList_ofList, Text.splitOn_flatMap_concat hbreak]
  convert hblocks using 1
  decide +kernel

/-- A pack is read from a text that mixes layouts, and is what its blob holds. -/
theorem mixed_layout_survives : parse layout = .ok pack ∧
    Blob.decode .pack (Blob.encode .pack pack.toPack) = .ok
      ⟨"Vanilla", "", "[x] = y", [.filled 0xAA, .filled 0xBB], [], [],
        [⟨.filled 0xCC, none, "", 11, 1, none, none⟩]⟩ := by
  have hline : ∀ value ∈ ["Vanilla", "", "[x] = y"], OneLine value := by
    intro value hv
    simp only [List.mem_cons, List.not_mem_nil, or_false] at hv
    rcases hv with rfl | rfl | rfl <;> exact ⟨by decide, by decide⟩
  have hsize : (Bytes.ofText layout).length < UInt64.size := by decide +kernel
  obtain ⟨hparse, hblob⟩ := described_pack_survives pack ⟨[stub, info]⟩ layout
    (hline "Vanilla" (by simp)) (hline "" (by simp)) (hline "[x] = y" (by simp)) (by decide)
    described written
  exact ⟨hparse, hblob hsize⟩

end Mixed

end PackConfig

end TrackCatalog
