import TrackCatalog.Text.Span

/-!
# Malformed TOML

Why a text is no TOML document, and the readers that find it out. A reader takes the front of a
text and gives what follows, or refuses a stretch of the text.

* `SyntaxError`: the reasons, and `SyntaxError.message` their wording.
* `Reader`: the readers.
-/

namespace TrackCatalog.Toml

open Text (Located Span)

/-- Why a text is no document. -/
inductive SyntaxError where
  | missingKey
  /-- A key is not followed by an equals sign. -/
  | keyWithoutValue
  | notAValue
  /-- A character does not stand in a string with these closing marks, or the marks are missing. -/
  | brokenString (marks : String)
  | unknownEscape
  /-- An escape by number has fewer digits than it takes. -/
  | fewDigits
  /-- An escape by number names no character. -/
  | notACharacter
  | unclosedHeader
  /-- An array or inline table lacks this closing mark. -/
  | unclosed (mark : Char)
  /-- Two items before this closing mark have no comma between them. -/
  | missingComma (mark : Char)
  | notInComment
  /-- More follows on a line that is complete. -/
  | restOfLine
  | duplicateKey
  deriving DecidableEq, Repr

/-- A text in backquotes. -/
def backquoted (s : String) : String := "\x60" ++ s ++ "\x60"

/-- The characters that stand after a backslash, in backquotes. -/
def escapeNames : String :=
  ", ".intercalate (["b", "e", "f", "n", "r", "\\", "\x22", "x", "u", "U"].map backquoted)

/-- The kind of string that closing marks belong to. -/
def stringKind (marks : String) : String :=
  if marks = "\x22" then "basic string"
  else if marks = "\x27" then "literal string"
  else if marks = "\x22\x22\x22" then "multi-line basic string"
  else "multi-line literal string"

/-- The reason in words. -/
def SyntaxError.message : SyntaxError → String
  | missingKey => "missing key"
  | keyWithoutValue => "key with no value, expected " ++ backquoted "="
  | notAValue => "string values must be quoted, expected literal string"
  | brokenString marks => s!"invalid {stringKind marks}, expected {backquoted marks}"
  | unknownEscape => "missing escaped value, expected " ++ escapeNames
  | fewDigits => "too few unicode value digits, expected unicode hexadecimal value"
  | notACharacter => "invalid value, expected unicode hexadecimal value"
  | unclosedHeader => "unclosed table, expected " ++ backquoted "]"
  | unclosed ']' => "unclosed array, expected " ++ backquoted "]"
  | unclosed mark => "unclosed inline table, expected " ++ backquoted (String.singleton mark)
  | missingComma ']' => "missing comma between array elements, expected " ++ backquoted ","
  | missingComma _ => "missing comma between key-value pairs, expected " ++ backquoted ","
  | notInComment => "invalid comment character, expected printable characters"
  | restOfLine => "unexpected key or value, expected newline, " ++ backquoted "#"
  | duplicateKey => "duplicate key"

/-- A stretch of a text that is refused, and why. -/
abbrev Refusal := Located SyntaxError

/-- Refuses a text at the place where this is left of it. -/
def refuseAt {α : Type} (cs : List Char) (reason : SyntaxError) : Except Refusal α :=
  .error ⟨.at cs, reason⟩

/-- A reader of the front of a text: what it gives, and what follows. -/
abbrev Reader (α : Type) := List Char → Except Refusal (α × List Char)

/-- Reads something together with the stretch it is read from. -/
def located {α : Type} (read : Reader α) : Reader (Located α) := fun cs =>
  match read cs with
  | .ok (a, rest) => .ok (⟨⟨cs, rest⟩, a⟩, rest)
  | .error e => .error e

end TrackCatalog.Toml
