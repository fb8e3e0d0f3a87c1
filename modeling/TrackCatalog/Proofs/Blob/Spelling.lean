import Mathlib.Data.List.Forall2
import TrackCatalog.Proofs.Blob.Codec

/-!
# How a form can be spelled

Only numbers can be spelled in more than one way: with groups of zeros on top, as long as a reader
takes the bytes. Everything else in a form is there byte for byte. So a form is a list of pieces,
and a byte string spells it when it is made of one spelling of each.

* `Varint.decode_eq_ok_iff`: what a number is read from. It is the number that the bytes stand for,
  not that number modulo something.
* `Varint.Spells.length_encode_le`, `Varint.Spells.eq_encode`: no spelling of a number is shorter
  than the one that is written, and no other is as short.
* `Spelled.length_le`, `Spelled.eq_shortest`: the same for a list of pieces.
-/

namespace TrackCatalog

variable {w rest : Bytes} {n : Nat}

namespace Varint

/-- The number that bytes stand for, whatever its size: seven bits a byte, low bits first, and the
high bit set on all bytes but the last. -/
inductive StandsFor : Bytes → Nat → Prop
  | last (b : UInt8) (hb : b.toNat < 128) : StandsFor [b] b.toNat
  | more (b : UInt8) (w : Bytes) (n : Nat) (hb : 128 ≤ b.toNat) (hw : StandsFor w n) :
      StandsFor (b :: w) (b.toNat - 128 + 128 * n)

/-- The bytes spell a number of this width. -/
structure Spells (width : Width) (n : Nat) (w : Bytes) : Prop where
  standsFor : StandsFor w n
  length_le : w.length ≤ width.maxBytes
  lt_bound : n < width.bound

theorem StandsFor.length_pos (h : StandsFor w n) : 0 < w.length := by
  cases h <;> exact Nat.succ_pos _

/-! ## Reading -/

theorem decodeWithin_of_standsFor (h : StandsFor w n) (rest : Bytes) {budget : Nat}
    (hl : w.length ≤ budget) : decodeWithin budget (w ++ rest) = .ok (n, rest) := by
  induction h generalizing budget with
  | last b hb =>
    rw [List.length_singleton] at hl
    obtain ⟨k, rfl⟩ : ∃ k, budget = k + 1 := ⟨budget - 1, by omega⟩
    rw [List.singleton_append, decodeWithin, if_pos hb]
  | more b w n hb hw ih =>
    rw [List.length_cons] at hl
    obtain ⟨k, rfl⟩ : ∃ k, budget = k + 1 := ⟨budget - 1, by omega⟩
    rw [List.cons_append, decodeWithin, if_neg (by omega), ih (by omega)]

theorem exists_of_decodeWithin {budget : Nat} {bytes : Bytes}
    (h : decodeWithin budget bytes = .ok (n, rest)) :
    ∃ w, bytes = w ++ rest ∧ StandsFor w n ∧ w.length ≤ budget := by
  induction budget generalizing bytes n with
  | zero => simp [decodeWithin] at h
  | succ budget ih =>
    cases bytes with
    | nil => simp [decodeWithin] at h
    | cons b bytes =>
      rw [decodeWithin] at h
      split at h
      · next hb =>
        cases h
        exact ⟨[b], rfl, .last b hb, Nat.succ_pos _⟩
      · next hb =>
        split at h
        · next m r hm =>
          cases h
          obtain ⟨w, rfl, hw, hl⟩ := ih hm
          exact ⟨b :: w, rfl, .more b w m (by omega) hw, Nat.succ_le_succ hl⟩
        · cases h

/-- **What a number is read from**: the bytes in front stand for it, and it is below the bound. -/
theorem decode_eq_ok_iff {width : Width} {bytes : Bytes} :
    decode width bytes = .ok (n, rest) ↔ ∃ w, bytes = w ++ rest ∧ Spells width n w := by
  constructor
  · intro h
    rw [decode] at h
    split at h
    · next m r hm =>
      split at h
      · next hb =>
        cases h
        obtain ⟨w, hw, hs, hl⟩ := exists_of_decodeWithin hm
        exact ⟨w, hw, hs, hl, hb⟩
      · cases h
    · cases h
  · rintro ⟨w, rfl, h⟩
    rw [decode, decodeWithin_of_standsFor h.standsFor rest h.length_le]
    dsimp only
    rw [if_pos h.lt_bound]

/-! ## The shortest spelling -/

/-- The first byte is the same in all spellings with more than one, and the others spell the same
number; so a spelling gets longer only by groups of zeros at its end. -/
theorem StandsFor.shortest (h : StandsFor w n) {budget : Nat} (hl : w.length ≤ budget + 1) :
    (encodeWithin budget n).length ≤ w.length ∧
      ((encodeWithin budget n).length = w.length → encodeWithin budget n = w) := by
  induction h generalizing budget with
  | last b hb =>
    have he : encodeWithin budget b.toNat = [b] := by
      cases budget with
      | zero => rw [encodeWithin, UInt8.ofNat_toNat]
      | succ budget => rw [encodeWithin, if_pos hb, UInt8.ofNat_toNat]
    rw [he]
    exact ⟨Nat.le_refl _, fun _ => rfl⟩
  | more b w n hb hw ih =>
    have hpos := hw.length_pos
    have hlt := b.toNat_lt
    rw [List.length_cons] at hl ⊢
    obtain ⟨k, rfl⟩ : ∃ k, budget = k + 1 := ⟨budget - 1, by omega⟩
    rw [encodeWithin]
    split
    · rw [List.length_singleton]
      exact ⟨by omega, fun he => by omega⟩
    · have hlow : UInt8.ofNat ((b.toNat - 128 + 128 * n) % 128 + 128) = b := by
        have : (b.toNat - 128 + 128 * n) % 128 + 128 = b.toNat := by omega
        rw [this, UInt8.ofNat_toNat]
      have hhigh : (b.toNat - 128 + 128 * n) / 128 = n := by omega
      have hrest : w.length ≤ k + 1 := by omega
      obtain ⟨hle, heq⟩ := ih hrest
      rw [hlow, hhigh, List.length_cons]
      exact ⟨by omega, fun he => by rw [heq (by omega)]⟩

variable {width : Width}

theorem Spells.length_encode_le (h : Spells width n w) : (encode width n).length ≤ w.length := by
  have hl := h.length_le
  exact (h.standsFor.shortest (by omega)).1

/-- No other spelling is as short. -/
theorem Spells.eq_encode (h : Spells width n w) (hl : (encode width n).length = w.length) :
    encode width n = w := by
  have hmax := h.length_le
  exact (h.standsFor.shortest (by omega)).2 hl

/-- A number is written in a spelling. -/
theorem spells_encode (hw : width.Roomy) (h : n < width.bound) :
    Spells width n (encode width n) := by
  have hd := decode_encode_append hw h []
  obtain ⟨w, he, hs⟩ := decode_eq_ok_iff.1 hd
  rw [List.append_nil, List.append_nil] at he
  rwa [he]

end Varint

/-! ## Pieces -/

/-- A piece of a form: a number, or bytes that stand for nothing but themselves. -/
inductive Piece where
  | word (n : UInt32)
  | length (n : Nat)
  | bytes (b : Bytes)

namespace Piece

/-- How a piece is written. -/
def shortest : Piece → Bytes
  | word n => Varint.encode .word n.toNat
  | length n => Varint.encode .length n
  | bytes b => b

/-- How a piece can be spelled. -/
def Spells : Piece → Bytes → Prop
  | word n, w => Varint.Spells .word n.toNat w
  | length n, w => Varint.Spells .length n w
  | bytes b, w => w = b

variable {p : Piece}

theorem Spells.length_shortest_le (h : p.Spells w) : p.shortest.length ≤ w.length := by
  cases p with
  | word n => exact Varint.Spells.length_encode_le h
  | length n => exact Varint.Spells.length_encode_le h
  | bytes b =>
    obtain rfl : w = b := h
    exact Nat.le_refl _

theorem Spells.eq_shortest (h : p.Spells w) (hl : p.shortest.length = w.length) :
    p.shortest = w := by
  cases p with
  | word n => exact Varint.Spells.eq_encode h hl
  | length n => exact Varint.Spells.eq_encode h hl
  | bytes b => exact Eq.symm h

/-- A piece that can be spelled at all is written in a spelling. -/
theorem Spells.shortest (h : p.Spells w) : p.Spells p.shortest := by
  cases p with
  | word n => exact Varint.spells_encode Varint.Width.word_roomy h.lt_bound
  | length n => exact Varint.spells_encode Varint.Width.length_roomy h.lt_bound
  | bytes b => rfl

end Piece

/-- The bytes are spellings of the pieces in a row. -/
def Spelled (ps : List Piece) (w : Bytes) : Prop :=
  ∃ us, List.Forall₂ Piece.Spells ps us ∧ w = us.flatten

/-- How the pieces are written. -/
def shortestForm (ps : List Piece) : Bytes := ps.flatMap Piece.shortest

variable {ps qs : List Piece}

theorem spelled_nil : Spelled [] w ↔ w = [] := by
  constructor
  · rintro ⟨us, hus, rfl⟩
    rw [List.forall₂_nil_left_iff.1 hus]
    rfl
  · rintro rfl
    exact ⟨[], .nil, rfl⟩

theorem spelled_cons {p : Piece} :
    Spelled (p :: ps) w ↔ ∃ u v, w = u ++ v ∧ p.Spells u ∧ Spelled ps v := by
  constructor
  · rintro ⟨us, hus, rfl⟩
    obtain ⟨u, vs, hu, hvs, rfl⟩ := List.forall₂_cons_left_iff.1 hus
    exact ⟨u, vs.flatten, rfl, hu, vs, hvs, rfl⟩
  · rintro ⟨u, v, rfl, hu, vs, hvs, rfl⟩
    exact ⟨u :: vs, .cons hu hvs, rfl⟩

theorem spelled_singleton {p : Piece} : Spelled [p] w ↔ p.Spells w := by
  simp [spelled_cons, spelled_nil]

theorem spelled_append :
    Spelled (ps ++ qs) w ↔ ∃ u v, w = u ++ v ∧ Spelled ps u ∧ Spelled qs v := by
  induction ps generalizing w with
  | nil => simp [spelled_nil]
  | cons p ps ih =>
    rw [List.cons_append, spelled_cons]
    constructor
    · rintro ⟨a, v, rfl, ha, hv⟩
      obtain ⟨b, c, rfl, hb, hc⟩ := ih.1 hv
      exact ⟨a ++ b, c, by rw [List.append_assoc], spelled_cons.2 ⟨a, b, rfl, ha, hb⟩, hc⟩
    · rintro ⟨u, c, rfl, hu, hc⟩
      obtain ⟨a, b, rfl, ha, hb⟩ := spelled_cons.1 hu
      exact ⟨a, b ++ c, by rw [List.append_assoc], ha, ih.2 ⟨b, c, rfl, hb, hc⟩⟩

/-- **No spelling is shorter than what is written**. -/
theorem Spelled.length_le (h : Spelled ps w) : (shortestForm ps).length ≤ w.length := by
  induction ps generalizing w with
  | nil => exact Nat.zero_le _
  | cons p ps ih =>
    obtain ⟨u, v, rfl, hu, hv⟩ := spelled_cons.1 h
    have h1 := hu.length_shortest_le
    have h2 := ih hv
    rw [shortestForm, List.flatMap_cons, List.length_append, List.length_append]
    exact Nat.add_le_add h1 h2

/-- **No other spelling is as short.** -/
theorem Spelled.eq_shortest (h : Spelled ps w) (hl : (shortestForm ps).length = w.length) :
    shortestForm ps = w := by
  induction ps generalizing w with
  | nil => exact (spelled_nil.1 h).symm
  | cons p ps ih =>
    obtain ⟨u, v, rfl, hu, hv⟩ := spelled_cons.1 h
    -- a piece that is longer than it need be would have to be made up for by a shorter one
    have h1 := hu.length_shortest_le
    have h2 : (shortestForm ps).length ≤ v.length := hv.length_le
    have hsum : p.shortest.length + (shortestForm ps).length = u.length + v.length := by
      rw [← List.length_append, ← List.length_append]
      exact hl
    rw [shortestForm, List.flatMap_cons, hu.eq_shortest (by omega)]
    exact congrArg (u ++ ·) (ih hv (by omega))

/-- What can be spelled at all is written in a spelling. -/
theorem Spelled.shortest (h : Spelled ps w) : Spelled ps (shortestForm ps) := by
  induction ps generalizing w with
  | nil => exact spelled_nil.2 rfl
  | cons p ps ih =>
    obtain ⟨u, v, rfl, hu, hv⟩ := spelled_cons.1 h
    exact spelled_cons.2 ⟨_, _, rfl, hu.shortest, ih hv⟩

/-- Two strings of bytes that differ at most in how a number is spelled. -/
def SameUpToSpelling (u v : Bytes) : Prop :=
  u = v ∨ ∃ width n, Varint.Spells width n u ∧ Varint.Spells width n v

theorem Piece.Spells.sameUpToSpelling {p : Piece} {u v : Bytes} (hu : p.Spells u)
    (hv : p.Spells v) : SameUpToSpelling u v := by
  cases p with
  | word n => exact .inr ⟨_, _, hu, hv⟩
  | length n => exact .inr ⟨_, _, hu, hv⟩
  | bytes b => exact .inl (Eq.trans hu (Eq.symm hv))

/-- **Two spellings of the same pieces** differ only, piece by piece, in how a number is spelled. -/
theorem sameUpToSpelling {us vs : List Bytes} (hus : List.Forall₂ Piece.Spells ps us)
    (hvs : List.Forall₂ Piece.Spells ps vs) : List.Forall₂ SameUpToSpelling us vs := by
  induction hus generalizing vs with
  | nil =>
    rw [List.forall₂_nil_left_iff.1 hvs]
    exact .nil
  | cons hp _ ih =>
    obtain ⟨v, vs', hv, hvs', rfl⟩ := List.forall₂_cons_left_iff.1 hvs
    exact .cons (hp.sameUpToSpelling hv) (ih hvs')

end TrackCatalog
