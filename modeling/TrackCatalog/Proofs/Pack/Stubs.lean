import TrackCatalog.Proofs.Pack.Layout
import TrackCatalog.Proofs.Sectioned.Normal

/-!
# Which tracks the sections of a pack name

Every section but the pack's own names a track, by its hash in either case and with blanks around
it. That no two sections have one name does not make these tracks different: two spellings of a hash
are two names. The tracks differ exactly when the names do so in lower case and without blanks.

* `stubSections`, `Section.hashName`: the sections, and the hash in the name of one.
* `hashNames_of_parse`: the tracks are those that the sections name, in order.
* `unreleased_once_iff`: when no track is described twice.
-/

namespace TrackCatalog

open PackConfig

variable {c : PackConfig} {d : SectionedDocument} {s : Section} {u : UnreleasedTrack}
  {text : String}

/-- The sections that hold an unreleased track. -/
def stubSections (d : SectionedDocument) : List Section :=
  d.sections.filter fun s => s.name ≠ infoSection

/-- The name of a section as the spelling of a hash: without blanks around it, in lower case. -/
def Section.hashName (s : Section) : String := lowerAscii (Text.trim s.name)

/-- A section is read as a track with the hash that its name spells. -/
theorem hashName_of_readUnreleased (h : readUnreleased s = .ok u) :
    s.hashName = u.hash.toHex := by
  obtain ⟨hash, hread, h⟩ := Except.bind_eq_ok_iff.1 h
  obtain ⟨slot, -, h⟩ := Except.bind_eq_ok_iff.1 h
  obtain ⟨kind, -, h⟩ := Except.bind_eq_ok_iff.1 h
  cases h
  have hspelled : hash.Spelled (Text.trim s.name).toList :=
    Hash.ofHex_eq_ok_iff.1 (Except.mapError_eq_ok_iff.1 hread)
  refine String.toList_inj.1 ?_
  rw [Section.hashName, toList_lowerAscii]
  exact hspelled

theorem map_hashName_of_forall₂ {ss : List Section} {us : List UnreleasedTrack}
    (h : List.Forall₂ (fun s u => readUnreleased s = .ok u) ss us) :
    ss.map Section.hashName = us.map fun u => u.hash.toHex := by
  induction h with
  | nil => rfl
  | cons first _ ih => rw [List.map_cons, List.map_cons, hashName_of_readUnreleased first, ih]

theorem PackConfig.parse_eq_ok_iff :
    PackConfig.parse text = .ok c ↔
      ∃ d, SectionedDocument.parse text = .ok d ∧ ofDocument d = .ok c := by
  simp only [PackConfig.parse, Except.bind_eq_ok_iff, Except.mapError_eq_ok_iff]

/-- **The unreleased tracks are those that the sections name**, in the order of the sections. -/
theorem hashNames_of_parse (h : PackConfig.parse text = .ok c) :
    ∃ d, SectionedDocument.parse text = .ok d ∧
      (stubSections d).map Section.hashName = c.unreleased.map fun u => u.hash.toHex := by
  obtain ⟨d, hd, h⟩ := PackConfig.parse_eq_ok_iff.1 h
  obtain ⟨_, -, h⟩ := Except.bind_eq_ok_iff.1 h
  obtain ⟨unreleased, hstubs, h⟩ := Except.bind_eq_ok_iff.1 h
  obtain ⟨_, -, h⟩ := Except.bind_eq_ok_iff.1 h
  obtain ⟨_, -, h⟩ := Except.bind_eq_ok_iff.1 h
  obtain ⟨_, -, h⟩ := Except.bind_eq_ok_iff.1 h
  obtain ⟨_, -, h⟩ := Except.bind_eq_ok_iff.1 h
  obtain ⟨_, -, h⟩ := Except.bind_eq_ok_iff.1 h
  obtain ⟨_, -, h⟩ := Except.bind_eq_ok_iff.1 h
  cases h
  exact ⟨d, hd, map_hashName_of_forall₂ (mapM_eq_ok_iff.1 hstubs)⟩

theorem nodup_toHex_iff (us : List UnreleasedTrack) :
    (us.map fun u => u.hash.toHex).Nodup ↔ (us.map UnreleasedTrack.hash).Nodup := by
  have hmap : (us.map fun u => u.hash.toHex) = (us.map UnreleasedTrack.hash).map Hash.toHex := by
    rw [List.map_map]
    rfl
  have hinjective : Function.Injective Hash.toHex := fun _ _ he => Hash.toHex_injective he
  rw [hmap, List.nodup_map_iff hinjective]

/-- The stubs of a pack have the hashes that its description gives. -/
theorem map_hash_toPack (c : PackConfig) :
    c.toPack.unreleasedTracks.map Track.hash = c.unreleased.map UnreleasedTrack.hash := by
  rw [PackConfig.toPack, List.map_map]
  rfl

/-- **When no track is described twice.** The stubs of a pack are for different tracks exactly when
its sections name different hashes, and that is so when each name is in lower case and without
blanks around it: no name stands twice. -/
theorem unreleased_once_iff (h : PackConfig.parse text = .ok c) :
    ∃ d, SectionedDocument.parse text = .ok d ∧
      c.unreleased.map (fun u => u.hash.toHex) = (stubSections d).map Section.hashName ∧
      ((c.unreleased.map UnreleasedTrack.hash).Nodup ↔
        ((stubSections d).map Section.hashName).Nodup) ∧
      ((c.toPack.unreleasedTracks.map Track.hash).Nodup ↔
        ((stubSections d).map Section.hashName).Nodup) ∧
      ((∀ s ∈ stubSections d, s.hashName = s.name) →
        (c.unreleased.map UnreleasedTrack.hash).Nodup) := by
  obtain ⟨d, hd, hnames⟩ := hashNames_of_parse h
  have honce : (c.unreleased.map UnreleasedTrack.hash).Nodup ↔
      ((stubSections d).map Section.hashName).Nodup := by
    rw [hnames, nodup_toHex_iff]
  refine ⟨d, hd, hnames.symm, honce, by rwa [map_hash_toPack], fun hplain => honce.2 ?_⟩
  rw [List.map_congr_left hplain]
  have hsub : (stubSections d).Sublist d.sections := List.filter_sublist
  exact (hsub.map Section.name).nodup (SectionedDocument.normal_of_parse hd).nodup

namespace Stubs

/-- A pack without lists and with two more sections, which have these names. -/
def document (first second : String) : SectionedDocument :=
  ⟨[⟨infoSection, [("name", "n"), ("author", "a"), ("description", "d"), ("race", ""), ("coin", ""),
      ("balloon", "")]⟩,
    ⟨first, [("slot", "11"), ("type", "1")]⟩, ⟨second, [("slot", "12"), ("type", "1")]⟩]⟩

/-- The description in it, with the hashes of the two tracks. -/
def config (first second : Hash) : PackConfig where
  name := "n"
  author := "a"
  description := "d"
  race := []
  coin := []
  balloon := []
  unreleased := [⟨first, 11, 1⟩, ⟨second, 12, 1⟩]

/-- The spelling of a hash in small letters. -/
def smallA : String := "aaaaaaaaaaaaaaaaaaaaaaaaaaaaaaaaaaaaaaaa"

/-- The same hash in capital letters. -/
def capitalA : String := "AAAAAAAAAAAAAAAAAAAAAAAAAAAAAAAAAAAAAAAA"

/-- The spelling of another hash in small letters. -/
def smallB : String := "bbbbbbbbbbbbbbbbbbbbbbbbbbbbbbbbbbbbbbbb"

/-- Two sections with different names in small letters are two tracks. -/
theorem plain_names_are_different_tracks :
    PackConfig.parse (document smallA smallB).render = .ok (config (.filled 0xAA) (.filled 0xBB)) ∧
      ((config (.filled 0xAA) (.filled 0xBB)).unreleased.map UnreleasedTrack.hash).Nodup := by
  have hdocument : SectionedDocument.parse (document smallA smallB).render =
      .ok (document smallA smallB) := by
    decide +kernel
  have hconfig : ofDocument (document smallA smallB) =
      .ok (config (.filled 0xAA) (.filled 0xBB)) := by
    decide +kernel
  have hnames : ∀ s ∈ stubSections (document smallA smallB), s.hashName = s.name := by
    decide +kernel
  have hread := PackConfig.parse_eq_ok_iff.2 ⟨_, hdocument, hconfig⟩
  obtain ⟨d, hd, -, -, -, hplain⟩ := unreleased_once_iff hread
  cases hdocument.symm.trans hd
  exact ⟨hread, hplain hnames⟩

/-- Two sections with the names of one track in small and in capital letters are both taken, and the
pack has a stub for each. -/
theorem one_track_has_two_stubs :
    ∃ c, PackConfig.parse (document smallA capitalA).render = .ok c ∧
      ¬ (c.unreleased.map UnreleasedTrack.hash).Nodup ∧
      ¬ (c.toPack.unreleasedTracks.map Track.hash).Nodup := by
  have hdocument : SectionedDocument.parse (document smallA capitalA).render =
      .ok (document smallA capitalA) := by
    decide +kernel
  have hconfig : ofDocument (document smallA capitalA) =
      .ok (config (.filled 0xAA) (.filled 0xAA)) := by
    decide +kernel
  exact ⟨_, PackConfig.parse_eq_ok_iff.2 ⟨_, hdocument, hconfig⟩, by decide, by decide⟩

end Stubs

end TrackCatalog
