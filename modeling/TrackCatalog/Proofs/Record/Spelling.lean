import TrackCatalog.Proofs.Emit.ShardName
import TrackCatalog.Proofs.Outcome
import TrackCatalog.Proofs.Text.Trim
import TrackCatalog.Proofs.Text.Utf8
import TrackCatalog.Text.Numeral

/-!
# Spellings of hashes and numbers

A hash is spelled by its digits in either case. A number is spelled by its decimal digits, with or
without a plus sign and leading zeros. All these spellings are read, and no others.

* `Hash.Spelled`, `Numeral`: the spellings.
* `Hash.ofHex_eq_ok_iff`, `Text.readWord?_eq_some_iff`: what is read.
-/

namespace TrackCatalog

namespace Hash

open Bytes (hexDigit hexPair)

variable {c : Char} {n : Nat} {cs : List Char}

theorem length_filled (b : UInt8) : (List.replicate 20 b).length = 20 := List.length_replicate

/-- The hash with this byte throughout. -/
def filled (b : UInt8) : Hash := ⟨List.replicate 20 b, length_filled b⟩

/-- The characters are the digits of the hash, each in either case. -/
def Spelled (h : Hash) (cs : List Char) : Prop := cs.map Char.toLower = h.toHex.toList

instance (h : Hash) (cs : List Char) : Decidable (h.Spelled cs) :=
  inferInstanceAs (Decidable (cs.map Char.toLower = h.toHex.toList))

theorem toNat_hexDigit : ∀ n < 16, (hexDigit n).toNat = if n < 10 then 48 + n else 87 + n := by
  decide

/-- A digit of either case is one byte, and has the value that it is written for. -/
theorem digitValue?_of_toLower (hn : n < 16) (h : c.toLower = hexDigit n) :
    ∃ b, String.utf8EncodeChar c = [b] ∧ digitValue? b = some n := by
  have hcode := congrArg Char.toNat h
  rw [Text.toNat_toLower, toNat_hexDigit n hn] at hcode
  have hascii : c.val.toNat ≤ 127 := by
    change c.toNat ≤ 127
    split at hcode <;> split at hcode <;> omega
  have hbyte : (UInt8.ofNat c.val.toNat).toNat = c.toNat :=
    UInt8.toNat_ofNat_of_lt' (show c.val.toNat < 256 by omega)
  refine ⟨UInt8.ofNat c.val.toNat, by rw [String.utf8EncodeChar, if_pos hascii], ?_⟩
  unfold digitValue?
  rw [hbyte]
  dsimp only
  -- a decimal digit, a capital letter or a small one
  by_cases hdecimal : n < 10
  · have hc : c.toNat = 48 + n := by split at hcode <;> omega
    rw [if_pos (by omega), hc, Nat.add_sub_cancel_left]
  · by_cases hcapital : 65 ≤ c.toNat ∧ c.toNat ≤ 90
    · have hc : c.toNat = 55 + n := by
        rw [if_pos hcapital, if_neg hdecimal] at hcode
        omega
      rw [if_neg (by omega), if_neg (by omega), if_pos (by omega), hc, Nat.add_sub_cancel_left]
    · have hc : c.toNat = 87 + n := by
        rwa [if_neg hcapital, if_neg hdecimal] at hcode
      rw [if_neg (by omega), if_pos (by omega), hc, Nat.add_sub_cancel_left]

theorem readPairs_of_spelled {bytes : Bytes} (position : Nat)
    (h : cs.map Char.toLower = bytes.flatMap hexPair) :
    readPairs position (cs.flatMap String.utf8EncodeChar) = .ok bytes := by
  induction bytes generalizing cs position with
  | nil =>
    obtain rfl : cs = [] := by simpa using h
    rfl
  | cons b bytes ih =>
    have hb := b.toNat_lt
    rw [List.flatMap_cons, hexPair, List.cons_append, List.cons_append, List.nil_append] at h
    obtain ⟨high, rest, rfl, hhigh, h⟩ := List.map_eq_cons_iff.1 h
    obtain ⟨low, rest, rfl, hlow, h⟩ := List.map_eq_cons_iff.1 h
    -- two digits of the text for the two halves of the byte
    obtain ⟨x, hx, hxn⟩ := digitValue?_of_toLower (by omega) hhigh
    obtain ⟨y, hy, hyn⟩ := digitValue?_of_toLower (by omega) hlow
    have hvalue : UInt8.ofNat (16 * (b.toNat / 16) + b.toNat % 16) = b := by
      have : 16 * (b.toNat / 16) + b.toNat % 16 = b.toNat := by omega
      rw [this, UInt8.ofNat_toNat]
    rw [List.flatMap_cons, List.flatMap_cons, hx, hy, List.singleton_append, List.singleton_append,
      readPairs]
    simp only [hxn, hyn, ih (position + 2) h, hvalue]

theorem Spelled.exists_hexDigit {h : Hash} (hs : h.Spelled cs) (hc : c ∈ cs) :
    ∃ n < 16, c.toLower = hexDigit n := by
  unfold Spelled at hs
  have hmem : c.toLower ∈ h.toHex.toList := by
    rw [← hs]
    exact List.mem_map_of_mem hc
  exact Bytes.exists_hexDigit_of_mem_toHex hmem

theorem isBlank_hexDigit : ∀ n < 16, Text.isBlank (hexDigit n) = false := by decide

theorem Spelled.isBlank {h : Hash} (hs : h.Spelled cs) (hc : c ∈ cs) : Text.isBlank c = false := by
  obtain ⟨n, hn, hlower⟩ := hs.exists_hexDigit hc
  rw [← Text.isBlank_toLower, hlower]
  exact isBlank_hexDigit n hn

theorem Spelled.ne_nil {h : Hash} (hs : h.Spelled cs) : cs ≠ [] := by
  rintro rfl
  exact h.toList_toHex_ne_nil hs.symm

/-- **A hash is read from each of its spellings.** -/
theorem ofHex_of_spelled {h : Hash} {s : String} (hs : h.Spelled s.toList) : ofHex s = .ok h := by
  unfold Spelled at hs
  rw [toHex, Bytes.toList_toHex] at hs
  have hread := readPairs_of_spelled 0 hs
  rw [← Bytes.ofText_eq_flatMap] at hread
  have hlength : (Bytes.ofText s).length = 40 := by
    rw [length_of_readPairs hread, h.length_bytes]
  have hdigits : ofDigits (Bytes.ofText s) = .ok h := by
    unfold ofDigits
    rw [if_neg (by omega), dif_pos hlength]
    split
    · next bytes hr =>
      rw [hread] at hr
      cases hr
      rfl
    · next hr =>
      rw [hread] at hr
      cases hr
  rw [ofHex, hdigits]
  rfl

/-! ### Nothing else is read -/

theorem digitValue?_cases {b : UInt8} (h : digitValue? b = some n) :
    n < 10 ∧ b.toNat = 48 + n ∨ 10 ≤ n ∧ n < 16 ∧ (b.toNat = 87 + n ∨ b.toNat = 55 + n) := by
  unfold digitValue? at h
  dsimp only at h
  split at h
  · cases h
    omega
  · split at h
    · cases h
      omega
    · split at h
      · cases h
        omega
      · cases h

/-- A byte with the value of a digit is a whole character, the digit in either case. -/
theorem toLower_of_digitValue? {b : UInt8} {more : Bytes} (he : String.utf8EncodeChar c = b :: more)
    (hb : digitValue? b = some n) : more = [] ∧ c.toLower = hexDigit n := by
  have hcases := digitValue?_cases hb
  have hn : n < 16 := by omega
  obtain ⟨rfl, hbyte⟩ := Bytes.eq_of_utf8EncodeChar he (by omega)
  refine ⟨rfl, Char.toNat_inj.1 ?_⟩
  rw [Text.toNat_toLower, ← hbyte, toNat_hexDigit n hn]
  rcases hcases with ⟨hdigit, hdecimal⟩ | ⟨hletter, -, hsmall | hcapital⟩
  · rw [if_neg (by omega), if_pos hdigit, hdecimal]
  · rw [if_neg (by omega), if_neg (by omega), hsmall]
  · rw [if_pos (by omega), if_neg (by omega), hcapital]
    omega

/-- A digit at the front of the bytes is the first character. -/
theorem exists_of_digitValue? {b : UInt8} {rest : Bytes}
    (he : cs.flatMap String.utf8EncodeChar = b :: rest) (hb : digitValue? b = some n) :
    ∃ c cs', cs = c :: cs' ∧ c.toLower = hexDigit n ∧ cs'.flatMap String.utf8EncodeChar = rest := by
  cases cs with
  | nil => cases he
  | cons c cs =>
    have hlength : (String.utf8EncodeChar c).length = c.utf8Size := String.length_utf8EncodeChar c
    have hpos := c.utf8Size_pos
    obtain ⟨first, more, hc⟩ := List.exists_cons_of_length_pos
      (show 0 < (String.utf8EncodeChar c).length by omega)
    rw [List.flatMap_cons, hc, List.cons_append, List.cons.injEq] at he
    obtain ⟨rfl, he⟩ := he
    obtain ⟨rfl, hlower⟩ := toLower_of_digitValue? hc hb
    exact ⟨c, cs, rfl, hlower, he⟩

/-- The first byte that is read comes from two digits. -/
theorem readPairs_eq_cons {position : Nat} {digits bytes : Bytes} {b : UInt8}
    (h : readPairs position digits = .ok (b :: bytes)) :
    ∃ high low rest x y, digits = high :: low :: rest ∧ digitValue? high = some x ∧
      digitValue? low = some y ∧ readPairs (position + 2) rest = .ok bytes ∧
      b = UInt8.ofNat (16 * x + y) := by
  unfold readPairs at h
  split at h
  · next high low rest =>
    split at h
    · cases h
    · cases h
    · next x y hx hy =>
      split at h
      · next hrest =>
        cases h
        exact ⟨high, low, rest, x, y, rfl, hx, hy, hrest, rfl⟩
      · cases h
  · cases h
  · cases h

theorem spelled_of_readPairs {bytes : Bytes} (position : Nat)
    (h : readPairs position (cs.flatMap String.utf8EncodeChar) = .ok bytes) :
    cs.map Char.toLower = bytes.flatMap hexPair := by
  induction bytes generalizing cs position with
  | nil =>
    have hlength := length_of_readPairs h
    have hchars := Bytes.length_toList_le (.ofList cs)
    rw [Bytes.ofText_eq_flatMap, String.toList_ofList, hlength] at hchars
    rw [List.length_eq_zero_iff.1 (Nat.le_zero.1 hchars)]
    rfl
  | cons b bytes ih =>
    obtain ⟨high, low, rest, x, y, hdigits, hx, hy, hrest, rfl⟩ := readPairs_eq_cons h
    obtain ⟨c, cs, rfl, hhigh, hdigits⟩ := exists_of_digitValue? hdigits hx
    obtain ⟨d, cs, rfl, hlow, rfl⟩ := exists_of_digitValue? hdigits hy
    have hxn := digitValue?_cases hx
    have hyn := digitValue?_cases hy
    have hvalue : (UInt8.ofNat (16 * x + y)).toNat = 16 * x + y :=
      UInt8.toNat_ofNat_of_lt' (show 16 * x + y < 256 by omega)
    rw [List.flatMap_cons, hexPair, hvalue, List.map_cons, List.map_cons, hhigh, hlow,
      ih (position + 2) hrest, show (16 * x + y) / 16 = x by omega,
      show (16 * x + y) % 16 = y by omega]
    rfl

/-- **A hash is read from its spellings, and from nothing else.** -/
theorem ofHex_eq_ok_iff {h : Hash} {s : String} : ofHex s = .ok h ↔ h.Spelled s.toList := by
  refine ⟨fun hread => ?_, ofHex_of_spelled⟩
  have hdigits : ofDigits (Bytes.ofText s) = .ok h := Except.mapError_eq_ok_iff.1 hread
  unfold ofDigits at hdigits
  split at hdigits
  · cases hdigits
  · split at hdigits
    · split at hdigits
      · next bytes hbytes =>
        cases hdigits
        rw [Bytes.ofText_eq_flatMap] at hbytes
        rw [Spelled, toHex, Bytes.toList_toHex]
        exact spelled_of_readPairs 0 hbytes
      · cases hdigits
    · cases hdigits

end Hash

/-! ## Numbers -/

/-- The characters are the digits of the number, after zeros and a plus sign or none. -/
inductive Numeral (n : UInt32) : List Char → Prop
  | unsigned (zeros : Nat) : Numeral n (List.replicate zeros '0' ++ Nat.toDigits 10 n.toNat)
  | signed (zeros : Nat) : Numeral n ('+' :: List.replicate zeros '0' ++ Nat.toDigits 10 n.toNat)

/-- The decimal form of a number spells it. -/
theorem numeral_toString (n : UInt32) : Numeral n (toString n).toList := by
  have hdigits : (toString n).toList = Nat.toDigits 10 n.toNat := Nat.toList_repr
  rw [hdigits]
  exact .unsigned 0

theorem Numeral.ne_nil {n : UInt32} {cs : List Char} (h : Numeral n cs) : cs ≠ [] := by
  cases h <;> simp [Nat.toDigits_ne_nil]

namespace Text

theorem isDigit_replicate_append (zeros n : Nat) :
    (List.replicate zeros '0' ++ Nat.toDigits 10 n).all Char.isDigit = true := by
  rw [List.all_eq_true]
  intro c hc
  rcases List.mem_append.1 hc with hc | hc
  · rw [List.eq_of_mem_replicate hc]
    rfl
  · exact Nat.isDigit_of_mem_toDigits (by omega) (by omega) hc

theorem digitsValue?_replicate_append (zeros n : Nat) :
    digitsValue? (List.replicate zeros '0' ++ Nat.toDigits 10 n) = some n := by
  have hzeros : (List.replicate zeros '0').foldl (fun n c => 10 * n + (c.toNat - 48)) 0 = 0 := by
    induction zeros with
    | zero => rfl
    | succ zeros ih => exact ih
  have hne : List.replicate zeros '0' ++ Nat.toDigits 10 n ≠ [] := by simp [Nat.toDigits_ne_nil]
  have hvalue : (Nat.toDigits 10 n).foldl (fun n c => 10 * n + (c.toNat - 48)) 0 = n := by
    have h := Nat.ofDigitChars_toDigits (b := 10) (n := n) (by omega) (by omega)
    rwa [Nat.ofDigitChars_eq_foldl] at h
  rw [digitsValue?, if_pos ⟨hne, isDigit_replicate_append zeros n⟩, List.foldl_append, hzeros,
    hvalue]

theorem unsignedPart_of_isDigit {cs : List Char} (h : cs.all Char.isDigit = true) :
    unsignedPart cs = cs := by
  unfold unsignedPart
  split
  · next rest =>
    have : '+'.isDigit = true := by
      rw [List.all_cons, Bool.and_eq_true] at h
      exact h.1
    cases this
  · rfl

theorem isBlank_of_isDigit {c : Char} (h : c.isDigit = true) : isBlank c = false := by
  have hc : c.val.toNat = c.toNat := rfl
  simp only [Char.isDigit, ge_iff_le, Bool.and_eq_true, decide_eq_true_eq, UInt32.le_iff_toNat_le,
    hc] at h
  have h₀ : '0'.val.toNat = 48 := rfl
  have h₉ : '9'.val.toNat = 57 := rfl
  exact isBlank_of_visible (by omega) (by omega)

/-- A spelling of a number holds no blank. -/
theorem isBlank_of_mem_numeral {n : UInt32} {cs : List Char} (h : Numeral n cs) {c : Char}
    (hc : c ∈ cs) : isBlank c = false := by
  cases h with
  | unsigned zeros =>
    exact isBlank_of_isDigit (List.all_eq_true.1 (isDigit_replicate_append zeros _) c hc)
  | signed zeros =>
    rw [List.cons_append] at hc
    rcases List.mem_cons.1 hc with rfl | hc
    · decide
    · exact isBlank_of_isDigit (List.all_eq_true.1 (isDigit_replicate_append zeros _) c hc)

/-- **A number is read from each of its spellings.** -/
theorem readWord?_of_numeral {n : UInt32} {s : String} (h : Numeral n s.toList) :
    readWord? s = some n := by
  have hdigits : ∃ zeros, unsignedPart s.toList =
      List.replicate zeros '0' ++ Nat.toDigits 10 n.toNat := by
    generalize s.toList = cs at h
    cases h with
    | unsigned zeros => exact ⟨zeros, unsignedPart_of_isDigit (isDigit_replicate_append zeros _)⟩
    | signed zeros => exact ⟨zeros, rfl⟩
  obtain ⟨zeros, hdigits⟩ := hdigits
  have hlt : n.toNat < UInt32.size := n.toNat_lt_size
  rw [readWord?, hdigits, digitsValue?_replicate_append]
  dsimp only
  rw [if_pos hlt, UInt32.ofNat_toNat]

/-! ### Nothing else is read -/

theorem digitChar_of_isDigit {c : Char} (h : c.isDigit = true) :
    c.toNat - 48 < 10 ∧ Nat.digitChar (c.toNat - 48) = c := by
  have hc : c.val.toNat = c.toNat := rfl
  have h₀ : '0'.val.toNat = 48 := rfl
  have h₉ : '9'.val.toNat = 57 := rfl
  simp only [Char.isDigit, ge_iff_le, Bool.and_eq_true, decide_eq_true_eq, UInt32.le_iff_toNat_le,
    hc, h₀, h₉] at h
  have hlt : c.toNat - 48 < 10 := by omega
  refine ⟨hlt, Char.toNat_inj.1 ?_⟩
  rw [Nat.toNat_digitChar_of_lt_ten hlt]
  omega

/-- A run of digits is the digits of its value after some zeros. -/
theorem exists_replicate_append {cs : List Char} (hne : cs ≠ []) (h : cs.all Char.isDigit = true) :
    ∃ zeros, cs = List.replicate zeros '0' ++
      Nat.toDigits 10 (cs.foldl (fun n c => 10 * n + (c.toNat - 48)) 0) := by
  induction cs using List.reverseRecOn with
  | nil => exact absurd rfl hne
  | append_singleton cs c ih =>
    rw [List.all_append, Bool.and_eq_true] at h
    obtain ⟨hcs, hc⟩ := h
    obtain ⟨hlt, hchar⟩ := digitChar_of_isDigit (by simpa using hc)
    rw [List.foldl_append, List.foldl_cons, List.foldl_nil]
    have hlast : Nat.toDigits 10 (c.toNat - 48) = [c] := by
      rw [Nat.toDigits_of_lt_base hlt, hchar]
    by_cases hnil : cs = []
    · subst hnil
      refine ⟨0, ?_⟩
      rw [List.foldl_nil, Nat.mul_zero, Nat.zero_add, hlast]
      rfl
    · obtain ⟨zeros, hzeros⟩ := ih hnil hcs
      generalize cs.foldl (fun n c => 10 * n + (c.toNat - 48)) 0 = n at hzeros
      rcases Nat.eq_zero_or_pos n with rfl | hpos
      · -- nothing but zeros before the last digit
        refine ⟨zeros + 1, ?_⟩
        rw [hzeros, Nat.toDigits_zero, Nat.mul_zero, Nat.zero_add, hlast, List.replicate_succ']
      · refine ⟨zeros, ?_⟩
        rw [← Nat.toDigits_append_toDigits (by omega) hpos hlt, hlast, ← List.append_assoc,
          ← hzeros]

theorem eq_replicate_append_of_digitsValue? {cs : List Char} {n : Nat}
    (h : digitsValue? cs = some n) :
    ∃ zeros, cs = List.replicate zeros '0' ++ Nat.toDigits 10 n := by
  unfold digitsValue? at h
  split at h
  · next hdigits =>
    cases h
    exact exists_replicate_append hdigits.1 hdigits.2
  · cases h

/-- Only a plus sign is left away before the digits. -/
theorem eq_unsignedPart_or (cs : List Char) :
    cs = unsignedPart cs ∨ cs = '+' :: unsignedPart cs := by
  unfold unsignedPart
  split
  · exact .inr rfl
  · exact .inl rfl

/-- **A number is read from its spellings, and from nothing else.** -/
theorem readWord?_eq_some_iff {n : UInt32} {s : String} :
    readWord? s = some n ↔ Numeral n s.toList := by
  refine ⟨fun h => ?_, readWord?_of_numeral⟩
  unfold readWord? at h
  split at h
  · next value hvalue =>
    split at h
    · next hlt =>
      cases h
      obtain ⟨zeros, hdigits⟩ := eq_replicate_append_of_digitsValue? hvalue
      rw [← UInt32.toNat_ofNat_of_lt' hlt] at hdigits
      rcases eq_unsignedPart_or s.toList with hs | hs
      · rw [hs, hdigits]
        exact .unsigned zeros
      · rw [hs, hdigits]
        exact .signed zeros
    · cases h
  · cases h

end Text

end TrackCatalog
