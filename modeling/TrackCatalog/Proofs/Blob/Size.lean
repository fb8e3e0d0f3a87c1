import TrackCatalog.Proofs.Blob.RoundTrip

/-!
# What fits into a file

A value whose form is shorter than `2 ^ 64` bytes has only lengths inside that can be written, as
every item of a list and every byte of a text takes at least one byte.

* `Codec.ShortFits`: a short form tells what the value is like.
* `Codec.catalog_shortFits`: so a catalog that was written to a file can be read back.
-/

namespace TrackCatalog

namespace Codec

variable {α β : Type} {c : Codec α} {d : Codec β} {P : α → Prop} {Q : β → Prop}

/-- What has a short form is in `P`. -/
def ShortFits (c : Codec α) (P : α → Prop) : Prop := ∀ a, (c.encode a).length < UInt64.size → P a

/-- Every value takes at least one byte. -/
def Positive (c : Codec α) : Prop := ∀ a, 0 < (c.encode a).length

/-- A list has at most as many items as the forms of its items have bytes. -/
theorem length_le_flatMap (hc : c.Positive) (as : List α) :
    as.length ≤ (as.flatMap c.encode).length := by
  induction as with
  | nil => exact Nat.le_refl _
  | cons a as ih =>
    have ha := hc a
    rw [List.flatMap_cons, List.length_append, List.length_cons]
    omega

theorem length_encode_le_flatMap {a : α} {as : List α} (ha : a ∈ as) :
    (c.encode a).length ≤ (as.flatMap c.encode).length := by
  induction as with
  | nil => simp at ha
  | cons b as ih =>
    rw [List.flatMap_cons, List.length_append]
    rcases List.mem_cons.1 ha with rfl | ha
    · omega
    · have := ih ha
      omega

/-- A text is no longer than its form, which has the length before the bytes. -/
theorem text_shortFits : text.ShortFits FitsText := by
  intro s hs
  simp only [text, List.length_append] at hs
  unfold FitsText IsLength
  omega

theorem ShortFits.option (hc : c.ShortFits P) : c.option.ShortFits fun o => ∀ a ∈ o, P a := by
  rintro o ho a rfl
  simp only [Codec.option, List.length_cons] at ho
  exact hc a (by omega)

/-- **A list with a short form** is short, and each of its items has a short form. -/
theorem ShortFits.list (hpos : c.Positive) (hc : c.ShortFits P) :
    c.list.ShortFits fun as => IsLength as.length ∧ ∀ a ∈ as, P a := by
  intro as h
  simp only [Codec.list, List.length_append] at h
  refine ⟨?_, fun a ha => hc a ?_⟩
  · have := length_le_flatMap hpos as
    unfold IsLength
    omega
  · have := length_encode_le_flatMap (c := c) ha
    omega

/-- The two parts of a pair with a short form have short forms. -/
theorem ShortFits.pair (hc : c.ShortFits P) (hd : d.ShortFits Q) :
    (c.pair d).ShortFits fun p => P p.1 ∧ Q p.2 := by
  rintro ⟨a, b⟩ h
  simp only [Codec.pair, List.length_append] at h
  exact ⟨hc a (by omega), hd b (by omega)⟩

theorem any_shortFits (c : Codec α) : c.ShortFits fun _ => True := fun _ _ => trivial

theorem hash_positive : hash.Positive := by
  intro h
  have := h.length_bytes
  simp only [hash]
  omega

theorem Positive.pair (hc : c.Positive) : (c.pair d).Positive := by
  intro p
  have := hc p.1
  simp only [Codec.pair, List.length_append]
  omega

/-- The texts in a track with a short form are short. -/
theorem track_shortFits : track.ShortFits Track.Fits := by
  have fields := (any_shortFits hash).pair ((any_shortFits word.option).pair (text_shortFits.pair
    ((any_shortFits word).pair ((any_shortFits word).pair
      ((any_shortFits word.option).pair text_shortFits.option)))))
  intro t h
  obtain ⟨-, -, hname, -, -, -, hversion⟩ := fields _ h
  exact ⟨hname, hversion⟩

/-- An alias table with a short form is short, for a hash takes bytes. -/
theorem aliases_shortFits : aliases.ShortFits fun as => IsLength as.length := by
  have entry : aliasEntry.Positive := fun a => hash_positive.pair _
  exact fun as h => (ShortFits.list entry (any_shortFits _) as h).1

/-- **What a catalog in a file is like**: a catalog with a short form has no length that could not be
written. -/
theorem catalog_shortFits : catalog.ShortFits Catalog.Fits := by
  have pos : track.Positive := fun t => hash_positive.pair _
  intro c h
  obtain ⟨⟨hl, ht⟩, ha⟩ := (track_shortFits.list pos).pair aliases_shortFits _ h
  exact ⟨hl, ht, ha⟩

end Codec

end TrackCatalog
