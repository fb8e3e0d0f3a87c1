/-!
# White space

A character is blank when it has the Unicode property White_Space: twenty-five characters, among
them the no-break space and the ideographic space, but not the zero-width space.

* `trim`: a text without the blanks at its two ends.
-/

namespace TrackCatalog.Text

/-- The closed ranges of the blank code points. -/
def blankRanges : List (Nat × Nat) :=
  [(0x9, 0xD), (0x20, 0x20), (0x85, 0x85), (0xA0, 0xA0), (0x1680, 0x1680), (0x2000, 0x200A),
    (0x2028, 0x2029), (0x202F, 0x202F), (0x205F, 0x205F), (0x3000, 0x3000)]

/-- The character has the property White_Space. -/
def isBlank (c : Char) : Bool :=
  blankRanges.any fun r => r.1 ≤ c.toNat && c.toNat ≤ r.2

/-- The characters without the blanks at either end. -/
def trimList (cs : List Char) : List Char :=
  ((cs.dropWhile isBlank).reverse.dropWhile isBlank).reverse

/-- The text without the blanks at either end. -/
def trim (s : String) : String := .ofList (trimList s.toList)

end TrackCatalog.Text
