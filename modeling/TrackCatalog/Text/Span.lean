/-!
# Stretches of a text

A reader works on what is left of a text, so a place is what is left there, and a stretch is given
by the places where it starts and stops. Line and column are counted only where they are shown.

* `Span`: a stretch of a text.
* `Located`: something that was read, with the stretch it was read from.
-/

namespace TrackCatalog.Text

/-- A stretch of a text, by what is left of the text where it starts and where it stops. -/
structure Span where
  start : List Char
  stop : List Char
  deriving DecidableEq, Repr

/-- The empty stretch at a place. -/
def Span.at (cs : List Char) : Span := ⟨cs, cs⟩

/-- The number of bytes of a text. -/
def byteCount (cs : List Char) : Nat := cs.foldr (fun c n => c.utf8Size + n) 0

/-- The number of bytes of a stretch. -/
def Span.size (s : Span) : Nat := byteCount s.start - byteCount s.stop

/-- What was read from a stretch of a text. -/
structure Located (α : Type) where
  span : Span
  item : α

end TrackCatalog.Text
