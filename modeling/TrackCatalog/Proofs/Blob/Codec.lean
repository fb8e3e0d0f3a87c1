import TrackCatalog.Blob.Artifact
import TrackCatalog.Proofs.Outcome

/-!
# Codecs read back what they write

A codec round-trips a value when, from what it writes and whatever bytes follow, it reads the value
and leaves just the bytes that follow. Each part of a record keeps this, so a record does.

* `Varint.decode_encode_append`: numbers that fit their width.
* `Codec.RoundTrips`: the law, for the values that can be written.
* `Codec.RoundTrips.option`, `list`, `pair`, `map`: the parts of a record keep it.
-/

namespace TrackCatalog

namespace Varint

/-- How many numbers there are with at most so many groups of seven bits. -/
def capacity : Nat → Nat
  | 0 => 1
  | n + 1 => 128 * capacity n

theorem decodeWithin_encodeWithin_append (budget n : Nat) (rest : Bytes)
    (h : n < capacity (budget + 1)) :
    decodeWithin (budget + 1) (encodeWithin budget n ++ rest) = .ok (n, rest) := by
  induction budget generalizing n with
  | zero =>
    have h : n < 128 := h
    have hn : (UInt8.ofNat n).toNat = n := UInt8.toNat_ofNat_of_lt' (show n < 256 by omega)
    rw [encodeWithin, List.singleton_append, decodeWithin, hn, if_pos (by omega)]
  | succ budget ih =>
    rw [encodeWithin]
    split
    · next hs =>
      have hn : (UInt8.ofNat n).toNat = n := UInt8.toNat_ofNat_of_lt' (show n < 256 by omega)
      rw [List.singleton_append, decodeWithin, hn, if_pos hs]
    · -- the first seven bits go into one byte, the others are left to the smaller budget
      have hb : (UInt8.ofNat (n % 128 + 128)).toNat = n % 128 + 128 :=
        UInt8.toNat_ofNat_of_lt' (show n % 128 + 128 < 256 by omega)
      have hr := ih (n / 128) (Nat.div_lt_of_lt_mul h)
      rw [List.cons_append, decodeWithin, hb, if_neg (by omega), hr]
      simp only [Except.ok.injEq, Prod.mk.injEq, and_true]
      omega

/-- The widths allow enough bytes for every number below their bound. -/
structure Width.Roomy (width : Width) : Prop where
  maxBytes_pos : 0 < width.maxBytes
  bound_le : width.bound ≤ capacity width.maxBytes

theorem Width.word_roomy : Width.word.Roomy := ⟨by decide, by decide⟩

theorem Width.length_roomy : Width.length.Roomy := ⟨by decide, by decide⟩

/-- **A number that fits is read back**, and the bytes after it are left. -/
theorem decode_encode_append {width : Width} (hw : width.Roomy) {n : Nat} (h : n < width.bound)
    (rest : Bytes) : decode width (encode width n ++ rest) = .ok (n, rest) := by
  have hm : width.maxBytes - 1 + 1 = width.maxBytes := Nat.sub_add_cancel hw.maxBytes_pos
  have hr := decodeWithin_encodeWithin_append (width.maxBytes - 1) n rest
    (by rw [hm]; exact Nat.lt_of_lt_of_le h hw.bound_le)
  rw [hm] at hr
  simp only [decode, encode, hr, if_pos h]

end Varint

namespace Codec

variable {α β : Type} {c : Codec α} {d : Codec β} {P : α → Prop} {Q : β → Prop}

/-- From what the codec writes of a value in `P`, and from whatever follows, it reads the value and
leaves what follows. -/
def RoundTrips (c : Codec α) (P : α → Prop) : Prop :=
  ∀ a, P a → ∀ rest, c.decode (c.encode a ++ rest) = .ok (a, rest)

/-- The number can be written as a length. -/
def IsLength (n : Nat) : Prop := n < UInt64.size

instance (n : Nat) : Decidable (IsLength n) := inferInstanceAs (Decidable (n < UInt64.size))

theorem decode_length_append {n : Nat} (h : IsLength n) (rest : Bytes) :
    Varint.decode .length (Varint.encode .length n ++ rest) = .ok (n, rest) :=
  Varint.decode_encode_append Varint.Width.length_roomy h rest

theorem word_roundTrips : word.RoundTrips fun _ => True := by
  intro n _ rest
  have h := Varint.decode_encode_append Varint.Width.word_roomy (n := n.toNat) n.toNat_lt_size rest
  simp only [word, h]
  rw [Except.bind_eq_ok_iff]
  exact ⟨_, rfl, by simp [pure, Except.pure]⟩

/-- The text is short enough for its length to be written. -/
def FitsText (s : String) : Prop := IsLength (Bytes.ofText s).length

instance (s : String) : Decidable (FitsText s) :=
  inferInstanceAs (Decidable (IsLength (Bytes.ofText s).length))

theorem text_roundTrips : text.RoundTrips FitsText := by
  intro s hs rest
  have hl := decode_length_append hs (Bytes.ofText s ++ rest)
  have ht : take (Bytes.ofText s).length (Bytes.ofText s ++ rest) = .ok (Bytes.ofText s, rest) := by
    simp [take]
  simp only [text, List.append_assoc]
  rw [Except.bind_eq_ok_iff]
  refine ⟨_, hl, Except.bind_eq_ok_iff.2 ⟨_, ht, ?_⟩⟩
  simp [pure, Except.pure]

theorem RoundTrips.option (hc : c.RoundTrips P) : c.option.RoundTrips fun o => ∀ a ∈ o, P a := by
  intro o ho rest
  cases o with
  | none => rfl
  | some a =>
    have h := hc a (ho a rfl) rest
    simp only [Codec.option, List.cons_append]
    rw [if_neg (by decide), if_pos trivial, Except.bind_eq_ok_iff]
    exact ⟨_, h, rfl⟩

theorem RoundTrips.decodeMany (hc : c.RoundTrips P) (as : List α) (h : ∀ a ∈ as, P a)
    (rest : Bytes) : c.decodeMany as.length (as.flatMap c.encode ++ rest) = .ok (as, rest) := by
  induction as with
  | nil => rfl
  | cons a as ih =>
    have ha := hc a (h a List.mem_cons_self) (as.flatMap c.encode ++ rest)
    have hr := ih fun b hb => h b (List.mem_cons_of_mem _ hb)
    rw [List.flatMap_cons, List.append_assoc, List.length_cons, Codec.decodeMany,
      Except.bind_eq_ok_iff]
    exact ⟨_, ha, Except.bind_eq_ok_iff.2 ⟨_, hr, rfl⟩⟩

theorem RoundTrips.list (hc : c.RoundTrips P) :
    c.list.RoundTrips fun as => IsLength as.length ∧ ∀ a ∈ as, P a := by
  rintro as ⟨hl, ha⟩ rest
  simp only [Codec.list, List.append_assoc]
  rw [Except.bind_eq_ok_iff]
  exact ⟨_, decode_length_append hl _, hc.decodeMany as ha rest⟩

theorem RoundTrips.pair (hc : c.RoundTrips P) (hd : d.RoundTrips Q) :
    (c.pair d).RoundTrips fun p => P p.1 ∧ Q p.2 := by
  rintro ⟨a, b⟩ ⟨ha, hb⟩ rest
  simp only [Codec.pair, List.append_assoc]
  rw [Except.bind_eq_ok_iff]
  exact ⟨_, hc a ha _, Except.bind_eq_ok_iff.2 ⟨_, hd b hb rest, rfl⟩⟩

theorem RoundTrips.map (hc : c.RoundTrips P) {ofOld : α → β} {toOld : β → α}
    (inverse : ∀ b, ofOld (toOld b) = b) :
    (c.map ofOld toOld).RoundTrips fun b => P (toOld b) := by
  intro b hb rest
  simp only [Codec.map]
  rw [Except.bind_eq_ok_iff]
  exact ⟨_, hc _ hb rest, by simp [inverse, pure, Except.pure]⟩

/-- Fewer values may be asked about. -/
theorem RoundTrips.mono {P' : α → Prop} (hc : c.RoundTrips P) (h : ∀ a, P' a → P a) :
    c.RoundTrips P' := fun a ha => hc a (h a ha)

/-- **Different values are written differently.** -/
theorem RoundTrips.encode_injective (hc : c.RoundTrips P) {a b : α} (ha : P a) (hb : P b)
    (h : c.encode a = c.encode b) : a = b := by
  have h1 := hc a ha []
  rw [h, hc b hb []] at h1
  cases h1
  rfl

end Codec

end TrackCatalog
