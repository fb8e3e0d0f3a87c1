/-!
# Lines

Lines end at a line feed; a carriage return right before it belongs to the ending. The last line
need not end. The same rule serves bytes and characters, so the two marks are parameters.

* `pieces`: the lines with their endings.
* `lines`: the lines without their endings.
-/

namespace TrackCatalog.Text

variable {α : Type} [DecidableEq α]

/-- Puts one element in front of text that is already cut into lines. -/
def consPiece (lf : α) (x : α) : List (List α) → List (List α)
  | [] => [[x]]
  | p :: ps => if x = lf then [x] :: p :: ps else (x :: p) :: ps

/-- The lines, each with its ending. -/
def pieces (lf : α) (xs : List α) : List (List α) := xs.foldr (consPiece lf) []

/-- A line without its ending: one `lf`, and one `cr` right before it. -/
def chomp (lf cr : α) (piece : List α) : List α :=
  match piece.reverse with
  | [] => []
  | x :: rest =>
    if x = lf then
      match rest with
      | [] => []
      | y :: rest => if y = cr then rest.reverse else (y :: rest).reverse
    else piece

/-- The lines without their endings. -/
def lines (lf cr : α) (xs : List α) : List (List α) := (pieces lf xs).map (chomp lf cr)

end TrackCatalog.Text
