import TrackCatalog.Toml.SyntaxError

/-!
# Strings in TOML

A string stands between double marks, where a backslash starts an escape, or between apostrophes,
where it does not; three marks in a row open a string that may hold line breaks. Each reader starts
after the opening marks and gives the characters of the string and what follows the closing marks.
-/

namespace TrackCatalog.Toml.Quoted

/-- The character may stand in a string or comment as it is. -/
def isPlain (c : Char) : Bool := c = '\t' || (0x20 ≤ c.toNat && c.toNat ≠ 0x7F)

/-- The value of a hexadecimal digit. -/
def hexValue? (c : Char) : Option Nat :=
  if '0' ≤ c ∧ c ≤ '9' then some (c.toNat - 48)
  else if 'a' ≤ c ∧ c ≤ 'f' then some (c.toNat - 87)
  else if 'A' ≤ c ∧ c ≤ 'F' then some (c.toNat - 55)
  else none

/-- Reads the character whose code point the next `n` hexadecimal digits spell. -/
def codePoint (n : Nat) : Reader Char := fun cs =>
  match (cs.take n).mapM hexValue? with
  | none => refuseAt cs .fewDigits
  | some digits =>
    let value := digits.foldl (fun v d => 16 * v + d) 0
    if digits.length ≠ n then refuseAt cs .fewDigits
    else if value.isValidChar then .ok (Char.ofNat value, cs.drop n)
    else refuseAt cs .notACharacter

/-- Reads the character that an escape stands for; the backslash is read already. -/
def escape : Reader Char
  | 'b' :: cs => .ok ('\x08', cs)
  | 't' :: cs => .ok ('\t', cs)
  | 'n' :: cs => .ok ('\n', cs)
  | 'f' :: cs => .ok ('\x0c', cs)
  | 'r' :: cs => .ok ('\r', cs)
  | 'e' :: cs => .ok ('\x1b', cs)
  | '\x22' :: cs => .ok ('\x22', cs)
  | '\\' :: cs => .ok ('\\', cs)
  | 'x' :: cs => codePoint 2 cs
  | 'u' :: cs => codePoint 4 cs
  | 'U' :: cs => codePoint 8 cs
  | cs => refuseAt cs .unknownEscape

/-- Puts a character in front of those that a reader gives. -/
def prepend (c : Char) (r : Except Refusal (List Char × List Char)) :
    Except Refusal (List Char × List Char) :=
  r.map fun (cs, rest) => (c :: cs, rest)

/-- Reads up to the closing double mark; `fuel` bounds the number of steps. -/
def basicFrom : Nat → Reader (List Char)
  | fuel + 1, c :: cs =>
    if c = '\x22' then .ok ([], cs)
    else if c = '\\' then
      match escape cs with
      | .ok (d, rest) => prepend d (basicFrom fuel rest)
      | .error e => .error e
    else if isPlain c then prepend c (basicFrom fuel cs)
    else refuseAt (c :: cs) (.brokenString "\x22")
  | _, cs => refuseAt cs (.brokenString "\x22")

/-- Reads a string between double marks. -/
def basic : Reader (List Char) := fun cs => basicFrom (cs.length + 1) cs

/-- Reads a string between apostrophes. -/
def literal : Reader (List Char)
  | [] => refuseAt [] (.brokenString "\x27")
  | c :: cs =>
    if c = '\x27' then .ok ([], cs)
    else if isPlain c then prepend c (literal cs)
    else refuseAt (c :: cs) (.brokenString "\x27")

/-- The text without a line break at its front. -/
def dropLineBreak : List Char → List Char
  | '\n' :: cs => cs
  | '\r' :: '\n' :: cs => cs
  | cs => cs

/-- A line break at the front, and what follows it. -/
def lineBreak? : List Char → Option (List Char)
  | '\n' :: cs => some cs
  | '\r' :: '\n' :: cs => some cs
  | _ => none

/-- The character is a blank within a line. -/
def isSpace (c : Char) : Bool := c = ' ' || c = '\t'

/-- A run of marks at the front of a long string: three to five of them close it, the last three
being the closing ones; fewer belong to the string. -/
def closing? (mark : Char) (cs : List Char) : Option (List Char) :=
  let run := cs.takeWhile (· = mark)
  if 3 ≤ run.length ∧ run.length ≤ 5 then some (run.drop 3) else none

/-- The text without the blanks and line breaks at its front. -/
def skipBlank : List Char → List Char
  | '\r' :: '\n' :: cs => skipBlank cs
  | c :: cs => if isSpace c ∨ c = '\n' then skipBlank cs else c :: cs
  | [] => []

/-- What follows a backslash at the end of a line: blanks and line breaks are skipped. -/
def continuation? (cs : List Char) : Option (List Char) :=
  (lineBreak? (cs.dropWhile isSpace)).map skipBlank

/-- Reads a long string up to three closing marks; `fuel` bounds the number of steps, and escapes
are read only between double marks. -/
def longFrom (mark : Char) : Nat → Reader (List Char)
  | fuel + 1, c :: cs =>
    if c = mark then
      match closing? mark (c :: cs) with
      | some extra => .ok (extra, (c :: cs).dropWhile (· = mark))
      | none =>
        if ((c :: cs).takeWhile (· = mark)).length < 3 then prepend c (longFrom mark fuel cs)
        else broken (c :: cs)
    else if c = '\\' ∧ mark = '\x22' then
      match continuation? cs with
      | some rest => longFrom mark fuel rest
      | none =>
        match escape cs with
        | .ok (d, rest) => prepend d (longFrom mark fuel rest)
        | .error e => .error e
    else if isPlain c ∨ (lineBreak? (c :: cs)).isSome then prepend c (longFrom mark fuel cs)
    else broken (c :: cs)
  | _, cs => broken cs
where
  /-- Refuses the string at a place. -/
  broken (cs : List Char) : Except Refusal (List Char × List Char) :=
    refuseAt cs (.brokenString (.ofList [mark, mark, mark]))

/-- Reads a long string; a line break right after the opening marks does not count, and any other
stands in the string as it is written. -/
def long (mark : Char) : Reader (List Char) := fun cs =>
  longFrom mark (cs.length + 1) (dropLineBreak cs)

end TrackCatalog.Toml.Quoted
