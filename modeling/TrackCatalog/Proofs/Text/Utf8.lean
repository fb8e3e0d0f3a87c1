import Mathlib.Data.List.Flatten
import TrackCatalog.Bytes

/-!
# Characters and bytes

The UTF-8 form of a text is that of its characters in a row, and each of them takes at least one
byte. So a text with fewer characters has a shorter form. A byte below 128 is a whole character; a
line feed is one, so bytes without it are no text with it.
-/

namespace TrackCatalog.Bytes

variable {s t : String} {bytes : Bytes}

/-- The UTF-8 form of a text, character by character. -/
theorem ofText_eq_flatMap (s : String) : ofText s = s.toList.flatMap String.utf8EncodeChar := by
  have h : (String.ofList s.toList).toByteArray = s.toList.utf8Encode := String.toByteArray_ofList
  rw [String.ofList_toList] at h
  unfold ofText
  change s.toByteArray.data.toList = _
  rw [h]
  simp [List.utf8Encode]

theorem length_toList_le (s : String) : s.toList.length ≤ (ofText s).length := by
  rw [ofText_eq_flatMap]
  induction s.toList with
  | nil => exact Nat.le_refl _
  | cons c cs ih =>
    have hc : (String.utf8EncodeChar c).length = c.utf8Size := String.length_utf8EncodeChar c
    have hpos := c.utf8Size_pos
    rw [List.flatMap_cons, List.length_append, List.length_cons]
    omega

theorem length_ofText_le (h : s.toList.Sublist t.toList) :
    (ofText s).length ≤ (ofText t).length := by
  rw [ofText_eq_flatMap, ofText_eq_flatMap]
  exact (h.flatMap _).length_le

/-- A character that starts with a small byte is this byte. -/
theorem eq_of_utf8EncodeChar {c : Char} {b : UInt8} {more : Bytes}
    (h : String.utf8EncodeChar c = b :: more) (hb : b.toNat < 128) :
    more = [] ∧ b.toNat = c.toNat := by
  unfold String.utf8EncodeChar at h
  dsimp only at h
  split at h
  · next hascii =>
    obtain ⟨rfl, rfl⟩ := List.cons.inj h
    exact ⟨rfl, UInt8.toNat_ofNat_of_lt' (show c.val.toNat < 256 by omega)⟩
  · -- the first of several bytes is a large one
    split at h
    · obtain ⟨rfl, -⟩ := List.cons.inj h
      rw [UInt8.toNat_ofNat'] at hb
      omega
    · split at h
      · obtain ⟨rfl, -⟩ := List.cons.inj h
        rw [UInt8.toNat_ofNat'] at hb
        omega
      · obtain ⟨rfl, -⟩ := List.cons.inj h
        rw [UInt8.toNat_ofNat'] at hb
        omega

/-- Bytes that are a text are the UTF-8 form of that text. -/
theorem ofText_of_text? (h : text? bytes = some s) : ofText s = bytes := by
  unfold text? String.fromUTF8? at h
  split at h
  · cases h
    rfl
  · cases h

/-- Bytes without a line feed are a text without one. -/
theorem newline_not_mem_of_text? (h : text? bytes = some s) (hb : 10 ∉ bytes) :
    '\n' ∉ s.toList := by
  intro hm
  rw [← ofText_of_text? h, ofText_eq_flatMap, List.mem_flatMap] at hb
  exact hb ⟨'\n', hm, by decide⟩

end TrackCatalog.Bytes
