import TrackCatalog.Proofs.Outcome
import TrackCatalog.Proofs.Text.Lines
import TrackCatalog.Proofs.Text.Trim
import TrackCatalog.Record.TrackLine

/-!
# Tracks of lines

Whatever a track line holds, the track read from it has an external id, a name that is not too long,
and texts that could be fields of a line again.

* `Record.Inline`: a text that has room in one field of one line.
* `Track.ofFields_eq_ok`: where the parts of a track come from.
* `Track.wellFormed_of_ofLine`: what every track of a line has.
-/

namespace TrackCatalog

variable {line tag name value text : String} {maxLen : Nat} {fs : List String} {k : Track}

namespace Record

/-- The text has neither a bar nor a line feed. -/
def Inline (text : String) : Prop := delimiter ∉ text.toList ∧ '\n' ∉ text.toList

theorem Inline.of_subset (h : Inline text) (hs : value.toList ⊆ text.toList) : Inline value :=
  ⟨fun hm => h.1 (hs hm), fun hm => h.2 (hs hm)⟩

theorem Inline.append (h : Inline text) (h' : Inline value) : Inline (text ++ value) := by
  rw [Inline, String.toList_append, List.mem_append, List.mem_append, not_or, not_or]
  exact ⟨⟨h.1, h'.1⟩, h.2, h'.2⟩

/-- The fields of a line have room in one. -/
theorem inline_of_mem_fields (h : value ∈ fields line) (hl : '\n' ∉ line.toList) :
    Inline value := by
  obtain ⟨cs, hcs, rfl⟩ := List.mem_map.1 h
  rw [Inline, String.toList_ofList]
  exact ⟨Text.not_mem_of_mem_splitOn hcs, fun hm => hl (Text.mem_of_mem_splitOn hcs hm).1⟩

theorem Inline.trim (h : Inline text) : Inline (Text.trim text) := by
  refine h.of_subset fun c hc => ?_
  rw [Text.trim, String.toList_ofList] at hc
  exact Text.mem_of_mem_trimList hc

end Record

open Record (Inline)

theorem length_displayName_le (tag name : String) (maxLen : Nat) :
    (displayName tag name maxLen).length ≤ maxLen := by
  rw [displayName, String.length_ofList, List.length_take]
  exact Nat.min_le_left _ _

theorem inline_displayName (ht : Inline tag) (hn : Inline name) (maxLen : Nat) :
    Inline (displayName tag name maxLen) := by
  have hspace : Inline " " := ⟨by decide, by decide⟩
  have hcut : ∀ {full : String}, Inline full → Inline (.ofList (full.toList.take maxLen)) :=
    fun h => h.of_subset (by rw [String.toList_ofList]; exact List.take_subset _ _)
  unfold displayName
  dsimp only
  split
  · exact hcut hn
  · exact hcut ((ht.append hspace).append hn)

namespace Track

theorem ne_zero_of_readMusic {m : Option UInt32} (h : readMusic value = .ok m) : m ≠ some 0 := by
  unfold readMusic at h
  dsimp only at h
  split at h
  · cases h
    exact Option.some_ne_none 0 |>.symm
  · obtain ⟨n, -, rfl⟩ := Except.map_eq_ok_iff.1 h
    split
    · exact Option.some_ne_none 0 |>.symm
    · next hn => exact fun he => hn (Option.some.inj he)

/-- A version is the text of its field without the blanks around it, if there is any. -/
theorem readVersion_eq_some (h : readVersion value = some text) :
    text = Text.trim value ∧ text ≠ "" := by
  unfold readVersion at h
  dsimp only at h
  split at h
  · cases h
  · next hne =>
    cases h
    exact ⟨rfl, by simpa using hne⟩

/-- **Where the parts of a track come from.** -/
theorem ofFields_eq_ok (h : ofFields maxLen fs = .ok k) :
    ∃ tag ∈ fs, ∃ name ∈ fs, ∃ version ∈ fs, ∃ music ∈ fs, ∃ id,
      k.name = displayName tag name maxLen ∧ k.version = readVersion version ∧
        readMusic music = .ok k.music ∧ k.externalId = some id := by
  unfold ofFields at h
  split at h
  · next _ _ _ _ _ _ music _ _ tag name _ version _ _ _ =>
    obtain ⟨_, hmusic, h⟩ := Except.bind_eq_ok_iff.1 h
    obtain ⟨_, -, h⟩ := Except.bind_eq_ok_iff.1 h
    obtain ⟨id, -, h⟩ := Except.bind_eq_ok_iff.1 h
    obtain ⟨_, -, h⟩ := Except.bind_eq_ok_iff.1 h
    obtain ⟨_, -, h⟩ := Except.bind_eq_ok_iff.1 h
    cases h
    refine ⟨tag, ?_, name, ?_, version, ?_, music, ?_, id, ?_, ?_, hmusic, ?_⟩ <;> simp
  · cases h

/-- What every track of a line has, placed or not. -/
structure WellFormed (maxLen : Nat) (k : Track) : Prop where
  externalId : k.externalId.isSome
  length_name : k.name.length ≤ maxLen
  name : Inline k.name
  music : k.music ≠ some 0
  version : ∀ v, k.version = some v → v ≠ "" ∧ Text.trim v = v ∧ Inline v

/-- **A track of a line is well formed.** -/
theorem wellFormed_of_ofLine (h : ofLine maxLen line = .ok k) (hl : '\n' ∉ line.toList) :
    k.WellFormed maxLen := by
  obtain ⟨tag, htag, name, hname, version, hversion, music, -, id, hk, hv, hm, hid⟩ :=
    ofFields_eq_ok h
  refine ⟨by rw [hid]; rfl, ?_, ?_, ne_zero_of_readMusic hm, fun v hkv => ?_⟩
  · rw [hk]
    exact length_displayName_le tag name maxLen
  · rw [hk]
    exact inline_displayName (Record.inline_of_mem_fields htag hl)
      (Record.inline_of_mem_fields hname hl) maxLen
  · obtain ⟨rfl, hne⟩ := readVersion_eq_some (hv ▸ hkv)
    refine ⟨hne, ?_, (Record.inline_of_mem_fields hversion hl).trim⟩
    rw [Text.trim, Text.trim, String.toList_ofList, Text.trimList_trimList]

end Track

end TrackCatalog
