import TrackCatalog.Proofs.Files.Path
import TrackCatalog.Proofs.Record.Spelling
import TrackCatalog.Sectioned.Document

/-!
# The text of a hash

Forty hexadecimal digits of either case are a hash, and no other text is. What is wrong with another
text is decided on its bytes, not on its characters: twenty letters of two bytes each have the right
number of bytes and fail at the first of them.

* `Hash.IsText`: forty hexadecimal digits.
* `HexFault.Of`: what is wrong with the bytes of a text.
* `Hash.exists_ofHex_iff`, `Hash.ofHex_eq_error_iff`: when a text is read, and how it is refused.
* `Hash.text_is_one_encoding`: texts in lower case and hashes stand for each other.
-/

namespace TrackCatalog

open Bytes (hexDigit)

variable {b : UInt8} {bytes before after : Bytes} {c : Char} {h : Hash} {s : String}

namespace Hash

/-- The character is a hexadecimal digit of either case. -/
def IsDigit (c : Char) : Prop :=
  ('0' ≤ c ∧ c ≤ '9') ∨ ('a' ≤ c ∧ c ≤ 'f') ∨ ('A' ≤ c ∧ c ≤ 'F')

instance (c : Char) : Decidable (IsDigit c) :=
  inferInstanceAs (Decidable (_ ∨ _ ∨ _))

/-- The text is forty hexadecimal digits. -/
def IsText (s : String) : Prop := s.toList.length = 40 ∧ ∀ c ∈ s.toList, IsDigit c

/-- The byte is the number of a hexadecimal digit. -/
def IsDigitByte (b : UInt8) : Prop := IsDigit (Char.ofNat b.toNat)

instance (b : UInt8) : Decidable (IsDigitByte b) :=
  inferInstanceAs (Decidable (IsDigit _))

end Hash

open Hash (IsDigit IsDigitByte IsText)

/-- What is wrong with the bytes of a text: their number is odd, or even but not forty, or they are
forty and the first that is no digit stands behind these. -/
inductive HexFault.Of (bytes : Bytes) : HexFault → Prop
  | odd (odd : bytes.length % 2 = 1) : Of bytes .oddLength
  | length (even : bytes.length % 2 = 0) (length : bytes.length ≠ 40) : Of bytes .wrongLength
  | digit {before after : Bytes} {b : UInt8} (length : bytes.length = 40)
      (cut : bytes = before ++ b :: after) (digits : ∀ c ∈ before, IsDigitByte c)
      (bad : ¬ IsDigitByte b) : Of bytes (.invalidDigit b before.length)

namespace Hash

/-! ## Digits -/

theorem isDigit_iff : IsDigit c ↔
    (48 ≤ c.toNat ∧ c.toNat ≤ 57) ∨ (97 ≤ c.toNat ∧ c.toNat ≤ 102) ∨
      (65 ≤ c.toNat ∧ c.toNat ≤ 70) := by
  unfold IsDigit
  simp only [Char.le_def, UInt32.le_iff_toNat_le]
  exact Iff.rfl

/-- A digit is in lower case what a number below sixteen is written as. -/
theorem isDigit_iff_toLower : IsDigit c ↔ ∃ n < 16, c.toLower = hexDigit n := by
  rw [isDigit_iff]
  constructor
  · intro h
    -- the number that the digit stands for
    have hn : ∃ n < 16, c.toLower.toNat = if n < 10 then 48 + n else 87 + n := by
      rw [Text.toNat_toLower]
      rcases h with h | h | h
      · exact ⟨c.toNat - 48, by omega, by rw [if_neg (by omega), if_pos (by omega)]; omega⟩
      · exact ⟨c.toNat - 87, by omega, by rw [if_neg (by omega), if_neg (by omega)]; omega⟩
      · exact ⟨c.toNat - 55, by omega, by rw [if_pos (by omega), if_neg (by omega)]; omega⟩
    obtain ⟨n, hn, hcode⟩ := hn
    refine ⟨n, hn, Char.toNat_inj.1 ?_⟩
    rw [hcode, toNat_hexDigit n hn]
  · rintro ⟨n, hn, hlower⟩
    have hcode := congrArg Char.toNat hlower
    rw [Text.toNat_toLower, toNat_hexDigit n hn] at hcode
    split at hcode <;> split at hcode <;> omega

theorem toNat_ofNat_of_byte (b : UInt8) : (Char.ofNat b.toNat).toNat = b.toNat := by
  have hb := b.toNat_lt
  have hvalid : b.toNat.isValidChar := .inl (by omega)
  rw [Char.ofNat, dif_pos hvalid]
  rfl

/-- The digits are just the bytes that have a value. -/
theorem isDigitByte_iff : IsDigitByte b ↔ ∃ n, digitValue? b = some n := by
  rw [IsDigitByte, isDigit_iff, toNat_ofNat_of_byte]
  constructor
  · intro h
    unfold digitValue?
    dsimp only
    rcases h with h | h | h
    · exact ⟨_, if_pos h⟩
    · exact ⟨_, by rw [if_neg (by omega), if_pos h]⟩
    · exact ⟨_, by rw [if_neg (by omega), if_neg (by omega), if_pos h]⟩
  · rintro ⟨n, hn⟩
    have hcases := digitValue?_cases hn
    omega

theorem digitValue?_eq_none_iff : digitValue? b = none ↔ ¬ IsDigitByte b := by
  rw [isDigitByte_iff, not_exists]
  exact Option.eq_none_iff_forall_not_mem

/-! ## Bytes -/

/-- Two digits at the front are read as one byte. -/
theorem readPairs_cons_cons {high low : UInt8} (position : Nat) (hhigh : IsDigitByte high)
    (hlow : IsDigitByte low) (rest : Bytes) :
    ∃ out, readPairs position (high :: low :: rest) =
      (readPairs (position + 2) rest).map (out :: ·) := by
  obtain ⟨x, hx⟩ := isDigitByte_iff.1 hhigh
  obtain ⟨y, hy⟩ := isDigitByte_iff.1 hlow
  refine ⟨UInt8.ofNat (16 * x + y), ?_⟩
  rw [readPairs, hx, hy]
  dsimp only
  cases readPairs (position + 2) rest <;> rfl

/-- An even number of digits is read. -/
theorem exists_readPairs : ∀ (position : Nat) (bytes : Bytes), bytes.length % 2 = 0 →
    (∀ c ∈ bytes, IsDigitByte c) → ∃ out, readPairs position bytes = .ok out
  | _, [], _, _ => ⟨[], rfl⟩
  | _, [_], even, _ => by simp at even
  | position, high :: low :: rest, even, digits => by
    obtain ⟨hhigh, hlow, hrest⟩ :
        IsDigitByte high ∧ IsDigitByte low ∧ ∀ c ∈ rest, IsDigitByte c := by
      simpa using digits
    have heven : rest.length % 2 = 0 := by
      simp only [List.length_cons] at even
      omega
    obtain ⟨out, hout⟩ := exists_readPairs (position + 2) rest heven hrest
    obtain ⟨b, hb⟩ := readPairs_cons_cons position hhigh hlow rest
    exact ⟨b :: out, by rw [hb, hout]; rfl⟩

/-- Reading stops at the first byte that is no digit, in the first or in the second place of a
pair. -/
theorem readPairs_of_bad (bad : ¬ IsDigitByte b) : ∀ (position : Nat) (before : Bytes),
    (before ++ b :: after).length % 2 = 0 → (∀ c ∈ before, IsDigitByte c) →
    readPairs position (before ++ b :: after) = .error (.invalidDigit b (position + before.length))
  | position, [], even, _ => by
    have hb := digitValue?_eq_none_iff.2 bad
    cases after with
    | nil => simp at even
    | cons low rest => rw [List.nil_append, readPairs, hb]; rfl
  | position, [high], _, digits => by
    have hb := digitValue?_eq_none_iff.2 bad
    obtain ⟨x, hx⟩ := isDigitByte_iff.1 (digits high List.mem_cons_self)
    rw [List.cons_append, List.nil_append, readPairs, hx, hb]
    rfl
  | position, high :: low :: before, even, digits => by
    obtain ⟨hhigh, hlow, hbefore⟩ :
        IsDigitByte high ∧ IsDigitByte low ∧ ∀ c ∈ before, IsDigitByte c := by
      simpa using digits
    have heven : (before ++ b :: after).length % 2 = 0 := by
      simp only [List.cons_append, List.length_cons] at even
      omega
    have hrest := readPairs_of_bad bad (position + 2) before heven hbefore
    obtain ⟨out, hout⟩ := readPairs_cons_cons position hhigh hlow (before ++ b :: after)
    rw [List.cons_append, List.cons_append, hout, hrest, List.length_cons, List.length_cons,
      show position + (before.length + 1 + 1) = position + 2 + before.length by omega]
    rfl

/-- Bytes are digits throughout, or there is a first that is none. -/
theorem all_digits_or_first_bad (bytes : Bytes) :
    (∀ c ∈ bytes, IsDigitByte c) ∨ ∃ before b after, bytes = before ++ b :: after ∧
      (∀ c ∈ before, IsDigitByte c) ∧ ¬ IsDigitByte b := by
  cases hfind : bytes.find? (fun b => ¬ IsDigitByte b) with
  | none =>
    rw [List.find?_eq_none] at hfind
    exact .inl fun c hc => by simpa using hfind c hc
  | some b =>
    obtain ⟨hb, before, after, hcut, hbefore⟩ := List.find?_eq_some_iff_append.1 hfind
    exact .inr ⟨before, b, after, hcut, fun c hc => by simpa using hbefore c hc, by simpa using hb⟩

theorem ofDigits_of_readPairs (length : bytes.length = 40) {out : Bytes}
    (hr : readPairs 0 bytes = .ok out) : ∃ h, ofDigits bytes = .ok h := by
  unfold ofDigits
  rw [if_neg (by omega), dif_pos length]
  split
  · exact ⟨_, rfl⟩
  · next hr' => rw [hr] at hr'; cases hr'

theorem ofDigits_of_readPairs_error {fault : HexFault} (length : bytes.length = 40)
    (hr : readPairs 0 bytes = .error fault) : ofDigits bytes = .error fault := by
  unfold ofDigits
  rw [if_neg (by omega), dif_pos length]
  split
  · next hr' => rw [hr] at hr'; cases hr'
  · next hr' => rw [hr] at hr'; cases hr'; rfl

/-- A fault of the bytes is why they are refused. -/
theorem ofDigits_of_fault {fault : HexFault} (hf : fault.Of bytes) :
    ofDigits bytes = .error fault := by
  cases hf with
  | odd odd => rw [ofDigits, if_pos odd]
  | length even length => rw [ofDigits, if_neg (by omega), dif_neg length]
  | @digit before after b length cut digits bad =>
    have even : (before ++ b :: after).length % 2 = 0 := by
      rw [← cut]
      omega
    have hread := readPairs_of_bad bad 0 before even digits
    rw [← cut, Nat.zero_add] at hread
    exact ofDigits_of_readPairs_error length hread

/-- Bytes are forty digits and a hash, or have a fault. -/
theorem ok_or_fault (bytes : Bytes) :
    (bytes.length = 40 ∧ (∀ c ∈ bytes, IsDigitByte c) ∧ ∃ h, ofDigits bytes = .ok h) ∨
      ∃ fault : HexFault, fault.Of bytes := by
  by_cases odd : bytes.length % 2 = 1
  · exact .inr ⟨_, .odd odd⟩
  · by_cases length : bytes.length = 40
    · rcases all_digits_or_first_bad bytes with digits | ⟨before, b, after, cut, digits, bad⟩
      · obtain ⟨out, hout⟩ := exists_readPairs 0 bytes (by omega) digits
        exact .inl ⟨length, digits, ofDigits_of_readPairs length hout⟩
      · exact .inr ⟨_, .digit length cut digits bad⟩
    · exact .inr ⟨_, .length (by omega) length⟩

theorem ofDigits_eq_error_iff {fault : HexFault} :
    ofDigits bytes = .error fault ↔ fault.Of bytes := by
  refine ⟨fun herror => ?_, ofDigits_of_fault⟩
  rcases ok_or_fault bytes with ⟨-, -, h, hok⟩ | ⟨fault', hf⟩
  · rw [hok] at herror
    cases herror
  · rw [ofDigits_of_fault hf] at herror
    cases herror
    exact hf

/-! ## Texts -/

/-- Each digit of a text is one byte of it. -/
theorem bytes_of_digits {cs : List Char} (digits : ∀ c ∈ cs, IsDigit c) :
    (cs.flatMap String.utf8EncodeChar).length = cs.length ∧
      ∀ b ∈ cs.flatMap String.utf8EncodeChar, IsDigitByte b := by
  induction cs with
  | nil => exact ⟨rfl, by simp⟩
  | cons c cs ih =>
    obtain ⟨hc, hcs⟩ := List.forall_mem_cons.1 digits
    obtain ⟨length, bytes⟩ := ih hcs
    obtain ⟨n, hn, hlower⟩ := isDigit_iff_toLower.1 hc
    obtain ⟨b, hb, hvalue⟩ := digitValue?_of_toLower hn hlower
    rw [List.flatMap_cons, hb, List.singleton_append, List.length_cons, List.length_cons, length]
    exact ⟨rfl, List.forall_mem_cons.2 ⟨isDigitByte_iff.2 ⟨n, hvalue⟩, bytes⟩⟩

/-- The text of a hash is forty bytes without a fault. -/
theorem not_fault_of_isText (hs : IsText s) (fault : HexFault) :
    ¬ fault.Of (Bytes.ofText s) := by
  obtain ⟨length, bytes⟩ := bytes_of_digits hs.2
  rw [← Bytes.ofText_eq_flatMap, hs.1] at length
  rw [← Bytes.ofText_eq_flatMap] at bytes
  intro hf
  cases hf with
  | odd odd => omega
  | length _ hlength => exact hlength length
  | digit _ cut _ bad =>
    rw [cut] at bytes
    exact bad (bytes _ (by simp))

theorem isText_of_spelled (hs : h.Spelled s.toList) : IsText s := by
  have hlength := congrArg List.length hs
  rw [List.length_map, h.length_toList_toHex] at hlength
  exact ⟨hlength, fun c hc => isDigit_iff_toLower.2 (hs.exists_hexDigit hc)⟩

/-- **A text is read just when it is forty hexadecimal digits.** -/
theorem exists_ofHex_iff : (∃ h, ofHex s = .ok h) ↔ IsText s := by
  constructor
  · rintro ⟨h, hread⟩
    exact isText_of_spelled (ofHex_eq_ok_iff.1 hread)
  · intro hs
    rcases ok_or_fault (Bytes.ofText s) with ⟨-, -, h, hok⟩ | ⟨fault, hf⟩
    · exact ⟨h, Except.mapError_eq_ok_iff.2 hok⟩
    · exact absurd hf (not_fault_of_isText hs fault)

/-- **Any other text is refused** for the fault of its bytes. -/
theorem ofHex_eq_error_iff {e : HashError} :
    ofHex s = .error e ↔ e.text = s ∧ e.fault.Of (Bytes.ofText s) := by
  rw [ofHex, Except.mapError_eq_error_iff]
  constructor
  · rintro ⟨fault, hfault, rfl⟩
    exact ⟨rfl, ofDigits_eq_error_iff.1 hfault⟩
  · rintro ⟨rfl, hfault⟩
    exact ⟨e.fault, ofDigits_eq_error_iff.2 hfault, rfl⟩

theorem toHex_of_ofHex (hread : ofHex s = .ok h) : h.toHex = lowerAscii s := by
  have hspelled := ofHex_eq_ok_iff.1 hread
  refine String.toList_inj.1 ?_
  rw [toList_lowerAscii]
  exact hspelled.symm

theorem toLower_hexDigit : ∀ n < 16, (hexDigit n).toLower = hexDigit n := by decide

/-- The digits of a hash spell it. -/
theorem spelled_toHex (h : Hash) : h.Spelled h.toHex.toList := by
  have hlower : ∀ c ∈ h.toHex.toList, c.toLower = c := by
    intro c hc
    obtain ⟨n, hn, rfl⟩ := Bytes.exists_hexDigit_of_mem_toHex hc
    exact toLower_hexDigit n hn
  rw [Spelled, List.map_congr_left hlower]
  exact List.map_id _

theorem ofHex_toHex (h : Hash) : ofHex h.toHex = .ok h := ofHex_eq_ok_iff.2 h.spelled_toHex

/-- **The text of a hash is one encoding.** The texts that are read are those of forty hexadecimal
digits, and the hash that is read is written as the text in lower case. Every hash is read back from
its digits. So texts stand for one hash just when they are the same but for the case of letters, and
different hashes have different shards. Any other text is refused for what is wrong with its bytes:
first their number, then the first of them that is no digit. -/
theorem text_is_one_encoding :
    (∀ s, (∃ h, ofHex s = .ok h) ↔ IsText s) ∧
    (∀ s h, ofHex s = .ok h → h.toHex = lowerAscii s) ∧
    (∀ h, ofHex h.toHex = .ok h) ∧
    (∀ s s' h h', ofHex s = .ok h → ofHex s' = .ok h' →
      (h = h' ↔ lowerAscii s = lowerAscii s')) ∧
    (∀ dir dir' h h', h ≠ h' → shardPath dir h ≠ shardPath dir' h') ∧
    ∀ s e, ofHex s = .error e ↔ e.text = s ∧ e.fault.Of (Bytes.ofText s) := by
  refine ⟨fun _ => exists_ofHex_iff, fun _ _ hread => toHex_of_ofHex hread, ofHex_toHex,
    fun s s' h h' hread hread' => ?_, fun _ _ _ _ hne he => hne (shardPath_injective he),
    fun _ _ => ofHex_eq_error_iff⟩
  rw [← toHex_of_ofHex hread, ← toHex_of_ofHex hread']
  exact ⟨congrArg toHex, toHex_injective⟩

namespace Letters

/-- The same character, several times. -/
def repeated (n : Nat) (c : Char) : String := .ofList (List.replicate n c)

theorem toList_repeated (n : Nat) (c : Char) : (repeated n c).toList = List.replicate n c := by
  rw [repeated, String.toList_ofList]

theorem isText_repeated {c : Char} (hc : IsDigit c) : IsText (repeated 40 c) := by
  rw [IsText, toList_repeated]
  exact ⟨List.length_replicate, fun d hd => by rwa [List.eq_of_mem_replicate hd]⟩

/-- Small and capital letters are one hash. Twenty letters with accents have forty bytes, and the
first of these is refused. -/
theorem letters_in_either_case_are_one_hash :
    (∃ h, ofHex (repeated 40 'f') = .ok h ∧ ofHex (repeated 40 'F') = .ok h) ∧
      ofHex (repeated 20 'é') = .error ⟨repeated 20 'é', .invalidDigit 0xC3 0⟩ := by
  obtain ⟨hread, -, -, hsame, -, hrefused⟩ := text_is_one_encoding
  obtain ⟨h, hsmall⟩ := (hread _).2 (isText_repeated (c := 'f') (by decide))
  obtain ⟨h', hcapital⟩ := (hread _).2 (isText_repeated (c := 'F') (by decide))
  have hlower : lowerAscii (repeated 40 'f') = lowerAscii (repeated 40 'F') := by
    simp only [lowerAscii, toList_repeated, List.map_replicate]
    rfl
  obtain rfl := (hsame _ _ _ _ hsmall hcapital).2 hlower
  have hbytes : Bytes.ofText (repeated 20 'é') =
      [] ++ 0xC3 :: 0xA9 :: (List.replicate 19 [0xC3, 0xA9]).flatten := by
    rw [Bytes.ofText_eq_flatMap, toList_repeated]
    decide
  refine ⟨⟨h, hsmall, hcapital⟩, (hrefused _ _).2 ⟨rfl, ?_⟩⟩
  exact .digit (by rw [hbytes]; rfl) hbytes (by simp) (by decide)

end Letters

end Hash

end TrackCatalog
