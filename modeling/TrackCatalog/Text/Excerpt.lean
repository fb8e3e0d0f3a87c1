import TrackCatalog.Text.Span

/-!
# Excerpts

A stretch of a text is shown by the line that it starts on, with marks below the line. Lines end at
line feeds alone. Columns count characters and marks count bytes, and the marks end with the line.

* `Excerpt.of`: the excerpt of a text that shows a stretch.
* `Excerpt.render`: the line and the marks below it.
-/

namespace TrackCatalog.Text

/-- A line of a text with a stretch of it marked. -/
structure Excerpt where
  /-- The number of the line, from one. -/
  line : Nat
  /-- The number of the column in which the marks start, from one. -/
  column : Nat
  content : String
  /-- The number of marks. -/
  width : Nat
  deriving DecidableEq, Repr

namespace Excerpt

/-- The character is not the end of a line. -/
def isInLine (c : Char) : Bool := c ≠ '\n'

/-- The excerpt with a stretch that starts `beyond` columns after the place between `before` and
`after`. At least one mark is shown. -/
def between (before after : List Char) (beyond size : Nat) : Excerpt :=
  let front := (before.reverse.takeWhile isInLine).reverse
  let content := front ++ after.takeWhile isInLine
  let column := front.length + beyond
  { line := before.count '\n' + 1
    column := column + 1
    content := .ofList content
    width := max 1 (min size (byteCount content - column)) }

/-- The excerpt of a text that shows a stretch. The end of the text counts as the column after the
last character, also when that character ends a line. -/
def of (text : List Char) (s : Span) : Excerpt :=
  if s.start.isEmpty then between text.dropLast text.getLast?.toList 1 s.size
  else between (text.take (text.length - s.start.length)) s.start 0 s.size

/-- Blanks. -/
def blanks (n : Nat) : String := .ofList (List.replicate n ' ')

/-- The line with its number, and the marks below it; a rule separates the numbers. -/
def render (e : Excerpt) : List String :=
  let number := toString e.line
  let rule := blanks (number.length + 1) ++ "|"
  [rule, number ++ " | " ++ e.content,
    rule ++ blanks e.column ++ .ofList (List.replicate e.width '^')]

end Excerpt

end TrackCatalog.Text
