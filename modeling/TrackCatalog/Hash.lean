import TrackCatalog.Bytes
import TrackCatalog.Text.Quoted

/-!
# Identity hashes

A track is known by the twenty bytes of its content hash, spelled in text as forty hexadecimal
digits of either case.

* `Hash.toHex`: the lowercase spelling.
* `Hash.ofHex`: reads a spelling; a refusal says what is wrong, decided on the UTF-8 bytes of the
  text: an odd number of them, a number other than forty, or the first that is no digit.
-/

namespace TrackCatalog

/-- A content hash of twenty bytes. -/
structure Hash where
  bytes : Bytes
  length_bytes : bytes.length = 20
  deriving DecidableEq

/-- Why a text is no spelling of a hash. -/
inductive HexFault where
  | oddLength
  | wrongLength
  | invalidDigit (byte : UInt8) (position : Nat)
  deriving DecidableEq, Repr

/-- A text that is no spelling of a hash, and why. -/
structure HashError where
  text : String
  fault : HexFault
  deriving DecidableEq, Repr

namespace HexFault

/-- The reason in words; a byte is shown as the character with its number. -/
def message : HexFault → String
  | oddLength => "Odd number of digits"
  | wrongLength => "Invalid string length"
  | invalidDigit byte position =>
    s!"Invalid character {Text.quoteChar (Char.ofNat byte.toNat)} at position {position}"

end HexFault

/-- The refusal in words. -/
def HashError.message (e : HashError) : String :=
  s!"invalid identity hash '{e.text}': {e.fault.message}"

namespace Hash

/-- The value of a hexadecimal digit of either case. -/
def digitValue? (b : UInt8) : Option Nat :=
  let n := b.toNat
  if 48 ≤ n ∧ n ≤ 57 then some (n - 48)
  else if 97 ≤ n ∧ n ≤ 102 then some (n - 87)
  else if 65 ≤ n ∧ n ≤ 70 then some (n - 55)
  else none

/-- Reads pairs of digits from left to right, the first digit at `position`. -/
def readPairs (position : Nat) : Bytes → Except HexFault Bytes
  | high :: low :: rest =>
    match digitValue? high, digitValue? low with
    | none, _ => .error (.invalidDigit high position)
    | some _, none => .error (.invalidDigit low (position + 1))
    | some h, some l =>
      match readPairs (position + 2) rest with
      | .ok bytes => .ok (UInt8.ofNat (16 * h + l) :: bytes)
      | .error e => .error e
  | [_] => .error .oddLength
  | [] => .ok []

theorem length_of_readPairs {position : Nat} {digits bytes : Bytes}
    (h : readPairs position digits = .ok bytes) : digits.length = 2 * bytes.length := by
  fun_induction readPairs position digits generalizing bytes with
  | case1 => simp at h
  | case2 => simp at h
  | case3 _ _ _ _ _ _ _ _ _ hr ih =>
    cases h
    have := ih hr
    simp only [List.length_cons]
    omega
  | case4 => simp at h
  | case5 => simp at h
  | case6 => cases h; rfl

/-- Reads the forty digits of a hash. -/
def ofDigits (digits : Bytes) : Except HexFault Hash :=
  if digits.length % 2 = 1 then .error .oddLength
  else if h : digits.length = 40 then
    match hr : readPairs 0 digits with
    | .ok bytes => .ok ⟨bytes, by have := length_of_readPairs hr; omega⟩
    | .error e => .error e
  else .error .wrongLength

/-- Reads the hexadecimal spelling of a hash. -/
def ofHex (text : String) : Except HashError Hash :=
  (ofDigits (Bytes.ofText text)).mapError fun fault => ⟨text, fault⟩

/-- The lowercase spelling. -/
def toHex (h : Hash) : String := Bytes.toHex h.bytes

/-- The spelling inside a mark that says what it is. -/
def tagged (h : Hash) : String := s!"Sha1({h.toHex})"

end Hash

end TrackCatalog
