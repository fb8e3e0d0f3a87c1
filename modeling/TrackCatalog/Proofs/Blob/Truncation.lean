import Mathlib.Data.List.Basic
import TrackCatalog.Proofs.Blob.RoundTrip

/-!
# Cut blobs are refused

A form that is cut anywhere is refused for want of more bytes, and for nothing else: a part of it
that is there as a whole is read as it was written, and the part that the cut falls into wants more.

* `Cut`: something is missing at the end.
* `Varint.decode_of_cut`: a number wants its last byte.
* `Codec.WantsMore`: the law; `Codec.WantsMore.option`, `list`, `pair`, `map`: the parts of a record
  keep it. Where one part follows another, the first has to be read back, so the law goes along
  with `Codec.RoundTrips`.
* `Artifact.cut_blob_is_refused`: a cut blob is refused, by its size if not even the header is
  there.
-/

namespace TrackCatalog

variable {w x y p : Bytes} {b : UInt8}

/-- The bytes are a front of the form, and something is missing. -/
def Cut (w p : Bytes) : Prop := p <+: w ∧ p ≠ w

theorem Cut.length_lt (h : Cut w p) : p.length < w.length := by
  refine Nat.lt_of_le_of_ne h.1.length_le fun he => ?_
  exact h.2 (h.1.eq_of_length he)

theorem not_cut_nil : ¬ Cut [] p := fun h => Nat.not_lt_zero _ h.length_lt

theorem cut_singleton (h : Cut [b] p) : p = [] := by
  have hlt := h.length_lt
  rw [List.length_singleton] at hlt
  exact List.length_eq_zero_iff.1 (by omega)

/-- A cut falls into the first part, or the first part is there and the cut falls into what follows. -/
theorem cut_append (h : Cut (x ++ y) p) : Cut x p ∨ ∃ q, p = x ++ q ∧ Cut y q := by
  obtain ⟨hp, hne⟩ := h
  rcases List.prefix_or_prefix_of_prefix hp (List.prefix_append x y) with hx | ⟨q, rfl⟩
  · by_cases he : p = x
    · refine .inr ⟨[], by rw [he, List.append_nil], List.nil_prefix, ?_⟩
      rintro rfl
      exact hne (by rw [he, List.append_nil])
    · exact .inl ⟨hx, he⟩
  · refine .inr ⟨q, rfl, (List.prefix_append_right_inj x).1 hp, ?_⟩
    rintro rfl
    exact hne rfl

theorem cut_cons (h : Cut (b :: w) p) : p = [] ∨ ∃ q, p = b :: q ∧ Cut w q :=
  (cut_append (x := [b]) h).imp_left cut_singleton

namespace Varint

theorem decodeWithin_of_cut (budget n : Nat) (h : Cut (encodeWithin budget n) p) :
    decodeWithin (budget + 1) p = .error .endOfInput := by
  induction budget generalizing n p with
  | zero =>
    obtain rfl := cut_singleton h
    rfl
  | succ budget ih =>
    rw [encodeWithin] at h
    split at h
    · obtain rfl := cut_singleton h
      rfl
    · rcases cut_cons h with rfl | ⟨q, rfl, hq⟩
      · rfl
      · -- the byte that is there says that another one follows
        have hb : (UInt8.ofNat (n % 128 + 128)).toNat = n % 128 + 128 :=
          UInt8.toNat_ofNat_of_lt' (show n % 128 + 128 < 256 by omega)
        rw [decodeWithin, hb, if_neg (by omega), ih _ hq]

/-- **A number that is cut** wants more. -/
theorem decode_of_cut {width : Width} (hw : width.Roomy) {n : Nat} (h : Cut (encode width n) p) :
    decode width p = .error .endOfInput := by
  have hm : width.maxBytes - 1 + 1 = width.maxBytes := Nat.sub_add_cancel hw.maxBytes_pos
  have hd := decodeWithin_of_cut _ n h
  rw [hm] at hd
  rw [decode, hd]

end Varint

namespace Codec

variable {α β : Type} {c : Codec α} {d : Codec β} {P : α → Prop} {Q : β → Prop}

/-- What the codec writes of a value in `P` wants more bytes wherever it is cut. -/
def WantsMore (c : Codec α) (P : α → Prop) : Prop :=
  ∀ a, P a → ∀ p, Cut (c.encode a) p → c.decode p = .error .endOfInput

theorem WantsMore.mono {P' : α → Prop} (hc : c.WantsMore P) (h : ∀ a, P' a → P a) :
    c.WantsMore P' := fun a ha => hc a (h a ha)

theorem decode_length_of_cut {n : Nat} (h : Cut (Varint.encode .length n) p) :
    Varint.decode .length p = .error .endOfInput :=
  Varint.decode_of_cut Varint.Width.length_roomy h

theorem word_wantsMore : word.WantsMore fun _ => True := by
  intro n _ p hp
  have h := Varint.decode_of_cut Varint.Width.word_roomy hp
  simp only [word, h]
  rfl

/-- A text is asked for as a whole, so a cut one is not looked at. -/
theorem text_wantsMore : text.WantsMore FitsText := by
  intro s hs p hp
  rcases cut_append hp with hp | ⟨q, rfl, hq⟩
  · simp only [text, decode_length_of_cut hp]
    rfl
  · have hshort : ¬ (Bytes.ofText s).length ≤ q.length := Nat.not_le.2 hq.length_lt
    have htake : take (Bytes.ofText s).length q = .error .endOfInput := by
      rw [take, if_neg hshort]
    simp only [text, decode_length_append hs q]
    change (take (Bytes.ofText s).length q >>= _) = _
    rw [htake]
    rfl

theorem WantsMore.option (hc : c.WantsMore P) : c.option.WantsMore fun o => ∀ a ∈ o, P a := by
  intro o ho p hp
  cases o with
  | none =>
    obtain rfl := cut_singleton hp
    rfl
  | some a =>
    rcases cut_cons hp with rfl | ⟨q, rfl, hq⟩
    · rfl
    · simp only [Codec.option]
      rw [if_neg (by decide), if_pos trivial, hc a (ho a rfl) q hq]
      rfl

theorem WantsMore.pair (hc : c.WantsMore P) (hr : c.RoundTrips P) (hd : d.WantsMore Q) :
    (c.pair d).WantsMore fun p => P p.1 ∧ Q p.2 := by
  rintro ⟨a, b⟩ ⟨ha, hb⟩ p hp
  simp only [Codec.pair]
  rcases cut_append hp with hp | ⟨q, rfl, hq⟩
  · rw [hc a ha p hp]
    rfl
  · rw [hr a ha q]
    change (d.decode q >>= _) = _
    rw [hd b hb q hq]
    rfl

theorem WantsMore.decodeMany (hc : c.WantsMore P) (hr : c.RoundTrips P) (as : List α)
    (h : ∀ a ∈ as, P a) (hp : Cut (as.flatMap c.encode) p) :
    c.decodeMany as.length p = .error .endOfInput := by
  induction as generalizing p with
  | nil => exact absurd hp not_cut_nil
  | cons a as ih =>
    have ha := h a List.mem_cons_self
    rw [List.flatMap_cons] at hp
    rw [List.length_cons, Codec.decodeMany]
    rcases cut_append hp with hp | ⟨q, rfl, hq⟩
    · rw [hc a ha p hp]
      rfl
    · rw [hr a ha q]
      change (c.decodeMany as.length q >>= _) = _
      rw [ih (fun b hb => h b (List.mem_cons_of_mem _ hb)) hq]
      rfl

/-- A list wants as many items as it has, so the items before a cut are no shorter list. -/
theorem WantsMore.list (hc : c.WantsMore P) (hr : c.RoundTrips P) :
    c.list.WantsMore fun as => IsLength as.length ∧ ∀ a ∈ as, P a := by
  rintro as ⟨hl, ha⟩ p hp
  simp only [Codec.list]
  rcases cut_append hp with hp | ⟨q, rfl, hq⟩
  · rw [decode_length_of_cut hp]
    rfl
  · rw [decode_length_append hl q]
    exact hc.decodeMany hr as ha hq

theorem WantsMore.map (hc : c.WantsMore P) {ofOld : α → β} {toOld : β → α} :
    (c.map ofOld toOld).WantsMore fun b => P (toOld b) := by
  intro b hb p hp
  simp only [Codec.map]
  rw [hc _ hb p hp]
  rfl

/-! ## Records -/

theorem hash_wantsMore : hash.WantsMore fun _ => True := by
  intro h _ p hp
  have hlt := hp.length_lt
  simp only [hash, h.length_bytes] at hlt
  simp only [hash]
  rw [dif_neg (by omega)]

theorem track_wantsMore : track.WantsMore Track.Fits := by
  have fields := hash_wantsMore.pair hash_roundTrips (word_wantsMore.option.pair
    word_roundTrips.option (text_wantsMore.pair text_roundTrips (word_wantsMore.pair
    word_roundTrips (word_wantsMore.pair word_roundTrips (word_wantsMore.option.pair
    word_roundTrips.option text_wantsMore.option)))))
  refine fields.map.mono fun t ht => ?_
  exact ⟨trivial, fun _ _ => trivial, ht.name, trivial, trivial, fun _ _ => trivial, ht.version⟩

theorem aliases_wantsMore : aliases.WantsMore fun as => IsLength as.length := by
  have written : aliasEntry.RoundTrips fun _ => True :=
    ((hash_roundTrips.pair hash_roundTrips).map fun a => rfl).mono fun _ _ => ⟨trivial, trivial⟩
  have cut : aliasEntry.WantsMore fun _ => True :=
    (hash_wantsMore.pair hash_roundTrips hash_wantsMore).map.mono fun _ _ => ⟨trivial, trivial⟩
  exact (cut.list written).mono fun as h => ⟨h, fun _ _ => trivial⟩

theorem catalog_wantsMore : catalog.WantsMore Catalog.Fits := by
  have fields := (track_wantsMore.list track_roundTrips).pair track_roundTrips.list
    aliases_wantsMore
  refine fields.map.mono fun c hc => ?_
  exact ⟨⟨hc.length_tracks, hc.tracks⟩, hc.length_aliases⟩

theorem pack_wantsMore : pack.WantsMore Pack.Fits := by
  have hashes := hash_wantsMore.list hash_roundTrips
  have fields := text_wantsMore.pair text_roundTrips (text_wantsMore.pair text_roundTrips
    (text_wantsMore.pair text_roundTrips (hashes.pair hash_roundTrips.list (hashes.pair
    hash_roundTrips.list (hashes.pair hash_roundTrips.list
    (track_wantsMore.list track_roundTrips))))))
  refine fields.map.mono fun p hp => ?_
  exact ⟨hp.name, hp.authorNames, hp.description, ⟨hp.length_race, fun _ _ => trivial⟩,
    ⟨hp.length_coin, fun _ _ => trivial⟩, ⟨hp.length_balloon, fun _ _ => trivial⟩,
    hp.length_unreleased, hp.unreleased⟩

end Codec

theorem Artifact.wantsMore : (k : Artifact) → k.codec.WantsMore k.Fits
  | track => Codec.track_wantsMore
  | catalog => Codec.catalog_wantsMore
  | aliases => Codec.aliases_wantsMore
  | pack => Codec.pack_wantsMore

namespace Blob

/-- A blob without a whole header is refused by its size. -/
theorem payload_of_short (h : p.length < 12) : payload p = .error (.truncated p.length) := by
  rw [payload, if_pos h]

/-- A cut falls into the header, or the header is there and the cut falls into the payload. -/
theorem decode_of_cut {α : Type} {c : Codec α} {P : α → Prop} (hc : c.WantsMore P) {a : α}
    (ha : P a) (h : Cut (encode c a) p) :
    decode c p =
      .error (if p.length < 12 then .truncated p.length else .payload .endOfInput) := by
  rcases cut_append h with hp | ⟨q, rfl, hq⟩
  · have hlt : p.length < 12 := hp.length_lt
    rw [decode, payload_of_short hlt, if_pos hlt]
  · have hlt : ¬ (header ++ q).length < 12 := by
      rw [List.length_append]
      have : header.length = 12 := rfl
      omega
    rw [decode, payload_header_append, if_neg hlt]
    dsimp only
    rw [hc a ha q hq]

end Blob

namespace Artifact

/-- **A cut blob is refused**, wherever it is cut: by its size if the header is not whole, and
else for want of more bytes. So no front of a blob is read as a value, be it a shorter list or a
shorter text, nor refused for another reason. -/
theorem cut_blob_is_refused (k : Artifact) (v : k.Value) (hv : k.Fits v) (p : Bytes)
    (hp : p <+: Blob.encode k.codec v) (hne : p ≠ Blob.encode k.codec v) :
    Blob.decode k.codec p =
      .error (if p.length < 12 then .truncated p.length else .payload .endOfInput) :=
  Blob.decode_of_cut k.wantsMore hv ⟨hp, hne⟩

namespace Midway

/-- A catalog of one track, whose name is a character of two bytes. -/
def catalog : Catalog := ⟨[⟨Sample.accented.hash, none, "é", 1, 1, none, none⟩], []⟩

/-- Its blob up to the first byte of the name. -/
def cut : Bytes := Blob.header ++ 1 :: List.replicate 20 0xFE ++ [0, 2, 0xC3]

/-- Cut inside a character, the blob is neither a catalog without the track nor invalid text. -/
theorem cut_character_is_refused :
    Artifact.catalog.Fits catalog ∧ cut <+: Blob.encode .catalog catalog ∧
      cut ≠ Blob.encode .catalog catalog ∧
      Blob.decode .catalog cut = .error (.payload .endOfInput) := by
  have fits : Artifact.catalog.Fits catalog := by
    refine ⟨by decide, fun t ht => ?_, by decide⟩
    obtain rfl := List.mem_singleton.1 ht
    exact ⟨by decide, by decide⟩
  have hp : cut <+: Blob.encode .catalog catalog := by decide
  have hne : cut ≠ Blob.encode .catalog catalog := by decide
  exact ⟨fits, hp, hne, cut_blob_is_refused .catalog catalog fits cut hp hne⟩

end Midway

end Artifact

end TrackCatalog
