import TrackCatalog.Text.Printable

/-!
# Quoted text

Messages show text between quotation marks with every character visible: the mark itself and the
backslash behind a backslash, the common controls by their letters, and any other character that
does not stand for itself by its code point in braces.

* `quoteText`: between double marks, where the apostrophe is plain.
* `quoteChar`: one character between apostrophes, where the double mark is plain.
-/

namespace TrackCatalog.Text

/-- The lowercase hexadecimal digits of a code point. -/
def codePointDigits (c : Char) : List Char := Nat.toDigits 16 c.toNat

/-- One character as it stands between two marks `mark`. -/
def escapeChar (mark : Char) (c : Char) : List Char :=
  if c = mark || c = '\\' then ['\\', c]
  else if c = '\t' then ['\\', 't']
  else if c = '\r' then ['\\', 'r']
  else if c = '\n' then ['\\', 'n']
  else if c = '\x00' then ['\\', '0']
  else if isPrintable c then [c]
  else ['\\', 'u', '\x7b'] ++ codePointDigits c ++ ['\x7d']

/-- The text between double quotation marks. -/
def quoteText (s : String) : String :=
  .ofList ('\x22' :: s.toList.flatMap (escapeChar '\x22') ++ ['\x22'])

/-- The character between apostrophes. -/
def quoteChar (c : Char) : String := .ofList ('\x27' :: escapeChar '\x27' c ++ ['\x27'])

end TrackCatalog.Text
