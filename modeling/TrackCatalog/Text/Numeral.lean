/-!
# Numerals

A numeral is written in decimal: an optional plus sign and at least one ASCII digit. Leading zeros
are allowed, and the value must fit the word it is read into.

* `digitsValue?`: the value of a run of digits.
* `readWord?`: a numeral below `2 ^ 32`; it never wraps.
-/

namespace TrackCatalog.Text

/-- The value of a nonempty run of decimal digits. -/
def digitsValue? (cs : List Char) : Option Nat :=
  if cs ≠ [] ∧ cs.all Char.isDigit then
    some (cs.foldl (fun n c => 10 * n + (c.toNat - 48)) 0)
  else none

/-- The digits of a numeral, without its optional plus sign. -/
def unsignedPart : List Char → List Char
  | '+' :: cs => cs
  | cs => cs

/-- The 32-bit number that a numeral denotes. -/
def readWord? (s : String) : Option UInt32 :=
  match digitsValue? (unsignedPart s.toList) with
  | some n => if n < UInt32.size then some (UInt32.ofNat n) else none
  | none => none

end TrackCatalog.Text
