import TrackCatalog.Toml.Quoted
import TrackCatalog.Toml.Scalar
import TrackCatalog.Toml.Table

/-!
# TOML documents

A document is a sequence of statements, one a line: a header opens a table, and an assignment adds
to the table that is open. Readers take the front of a text and give what follows, or refuse it.

* `dottedKey`: the keys; a dotted one has at most `maxKeys` parts.
* `value`: the values; they nest at most `maxDepth` deep.
* `statements`: the lines of a document.
* `Document.parse`: the table that a document describes, if it is one.
-/

namespace TrackCatalog.Toml

open Text (Located Span)
open Quoted (isSpace isPlain lineBreak?)

/-- The greatest number of arrays and inline tables inside each other. -/
def maxDepth : Nat := 80

/-- The greatest number of keys with dots between them. -/
def maxKeys : Nat := 80

/-- The text without the blanks at its front. -/
def skipSpaces (cs : List Char) : List Char := cs.dropWhile isSpace

/-- What follows a comment: the end of the line or of the text. -/
def skipComment (cs : List Char) : Except Refusal (List Char) :=
  match cs.dropWhile isPlain with
  | [] => .ok []
  | rest => if (lineBreak? rest).isSome then .ok rest else refuseAt rest .notInComment

/-- What follows blanks, line breaks and comments, from inside a comment or not. -/
def skipGapFrom (inComment : Bool) : List Char → Except Refusal (List Char)
  | [] => .ok []
  | '\n' :: cs => skipGapFrom false cs
  | '\r' :: '\n' :: cs => skipGapFrom false cs
  | c :: cs =>
    if inComment then if isPlain c then skipGapFrom true cs else refuseAt (c :: cs) .notInComment
    else if isSpace c then skipGapFrom false cs
    else if c = '#' then skipGapFrom true cs
    else .ok (c :: cs)

/-- What follows blanks, line breaks and comments. -/
def skipGap (cs : List Char) : Except Refusal (List Char) := skipGapFrom false cs

/-- The character may stand in a key without quotes. -/
def isBare (c : Char) : Bool := c.isAlphanum || c = '_' || c = '-'

/-- Makes a text of the characters that a reader gives. -/
def asText (r : Except Refusal (List Char × List Char)) : Except Refusal (String × List Char) :=
  r.map fun (cs, rest) => (.ofList cs, rest)

/-- Reads one key, bare or quoted. -/
def simpleKey : Reader String
  | '\x22' :: cs => asText (Quoted.basic cs)
  | '\x27' :: cs => asText (Quoted.literal cs)
  | cs =>
    let (key, rest) := cs.span isBare
    if key.isEmpty then refuseAt cs .missingKey else .ok (.ofList key, rest)

/-- Reads keys with dots between them; `fuel` bounds their number. -/
def keysFrom : Nat → Reader (List (Located String))
  | 0, cs => refuseAt cs .missingKey
  | fuel + 1, cs =>
    match located simpleKey cs with
    | .error e => .error e
    | .ok (key, rest) =>
      match skipSpaces rest with
      | '.' :: rest =>
        (keysFrom fuel (skipSpaces rest)).map fun (keys, rest) => (key :: keys, rest)
      | rest => .ok ([key], rest)

/-- A dotted key: the keys that lead to it, and the last one. -/
structure DottedKey where
  path : List (Located String)
  key : Located String

/-- Reads a dotted key. Blanks after it are skipped. -/
def dottedKey : Reader DottedKey := fun cs =>
  match keysFrom maxKeys cs with
  | .error e => .error e
  | .ok (keys, rest) =>
    match keys.getLast? with
    | some last => .ok (⟨keys.dropLast, last⟩, rest)
    | none => refuseAt cs .missingKey

/-- A key and its value. -/
structure Assignment where
  target : DottedKey
  value : Located Value

/-- Reads an assignment with a given reader of values. What may stand around the equals sign is
skipped by `gap`. -/
def assignment (gap : List Char → Except Refusal (List Char)) (item : Reader (Located Value)) :
    Reader Assignment := fun cs => do
  let (target, rest) ← dottedKey cs
  match ← gap rest with
  | '=' :: rest =>
    let (v, rest) ← item (← gap rest)
    return (⟨target, v⟩, rest)
  | rest => refuseAt rest .keyWithoutValue

/-- Reads items with commas between them, and perhaps after the last, up to a closing mark; `fuel`
bounds their number. -/
def itemsFrom {α : Type} (close : Char) (item : Reader α) : Nat → Reader (List α)
  | 0, cs => refuseAt cs (.unclosed close)
  | fuel + 1, cs =>
    match skipGap cs with
    | .error e => .error e
    | .ok [] => refuseAt [] (.unclosed close)
    | .ok (c :: cs) =>
      if c = close then .ok ([], cs)
      else
        match item (c :: cs) with
        | .error e => .error e
        | .ok (a, rest) =>
          match skipGap rest with
          | .error e => .error e
          | .ok [] => refuseAt [] (.unclosed close)
          | .ok (d :: rest) =>
            if d = ',' then
              (itemsFrom close item fuel rest).map fun (as, rest) => (a :: as, rest)
            else if d = close then .ok ([a], rest)
            else refuseAt (d :: rest) (.missingComma close)

/-- Reads items up to a closing mark. -/
def items {α : Type} (close : Char) (item : Reader α) : Reader (List α) := fun cs =>
  itemsFrom close item (cs.length + 1) cs

/-- The table of assignments between braces. -/
def inlineTable (as : List Assignment) : Except Refusal Value :=
  (as.foldlM (fun es a => Table.insert a.target.path a.target.key a.value .inline es) []).map
    (.table .inline)

/-- The character ends a token without quotes. -/
def endsToken (c : Char) : Bool :=
  c = '\n' || c = '\r' || c = ',' || c = ']' || c = '\x7d' || c = '#' || c = '=' || c = '[' ||
    c = '\x7b'

/-- The character opens a string. -/
def opensString (c : Char) : Bool := c = '\x22' || c = '\x27'

/-- Takes a token off the front. Blanks belong to it when another word follows; a string that
follows them (`afterBlank`) is no word. -/
def token (afterBlank : Bool) : List Char → List Char × List Char
  | [] => ([], [])
  | c :: cs =>
    if endsToken c || (afterBlank && opensString c) then ([], c :: cs)
    else
      let (word, rest) := token (isSpace c) cs
      if isSpace c && word.isEmpty then ([], c :: cs) else (c :: word, rest)

/-- Reads a number, a date or a truth value. -/
def unquoted : Reader Value := fun cs =>
  let (word, rest) := token false cs
  match Scalar.ofToken? word with
  | some v => .ok (v, rest)
  | none => .error ⟨⟨cs, rest⟩, .notAValue⟩

/-- Makes a value of the text that a reader gives. -/
def asString (r : Except Refusal (List Char × List Char)) : Except Refusal (Value × List Char) :=
  r.map fun (cs, rest) => (.string (.ofList cs), rest)

/-- Reads a string, a number, a date or a truth value. -/
def scalar : Reader Value
  | '\x22' :: '\x22' :: '\x22' :: cs => asString (Quoted.long '\x22' cs)
  | '\x27' :: '\x27' :: '\x27' :: cs => asString (Quoted.long '\x27' cs)
  | '\x22' :: cs => asString (Quoted.basic cs)
  | '\x27' :: cs => asString (Quoted.literal cs)
  | cs => unquoted cs

/-- Reads a value in which arrays and inline tables nest at most this deep. Between brackets and
braces lines may break, and comments may stand. -/
def value : Nat → Reader Value
  | depth + 1, '[' :: cs =>
    (items ']' (located (value depth)) cs).map fun (vs, rest) => (.array false vs, rest)
  | depth + 1, '\x7b' :: cs =>
    match items '\x7d' (assignment skipGap (located (value depth))) cs with
    | .ok (as, rest) => (inlineTable as).map fun v => (v, rest)
    | .error e => .error e
  | _, cs => scalar cs

/-- A line of a document that says something. -/
inductive Statement where
  | assign (a : Assignment)
  | openTable (header : Span) (target : DottedKey)
  | openItem (header : Span) (target : DottedKey)

/-- Reads a line that says something, up to the blanks or the comment at its end. -/
def statement : Reader Statement
  | '[' :: '[' :: cs =>
    match dottedKey (skipSpaces cs) with
    | .ok (target, ']' :: ']' :: rest) => .ok (.openItem ⟨'[' :: '[' :: cs, rest⟩ target, rest)
    | .ok (_, rest) => refuseAt rest .unclosedHeader
    | .error e => .error e
  | '[' :: cs =>
    match dottedKey (skipSpaces cs) with
    | .ok (target, ']' :: rest) => .ok (.openTable ⟨'[' :: cs, rest⟩ target, rest)
    | .ok (_, rest) => refuseAt rest .unclosedHeader
    | .error e => .error e
  | cs =>
    let read := assignment (fun cs => .ok (skipSpaces cs)) (located (value maxDepth))
    (read cs).map fun (a, rest) => (.assign a, rest)

/-- What follows the blanks, the comment and the break at the end of a line. -/
def endLine (cs : List Char) : Except Refusal (List Char) := do
  let rest ← match skipSpaces cs with
    | '#' :: cs => skipComment cs
    | cs => .ok cs
  match rest with
  | [] => .ok []
  | c :: cs =>
    match lineBreak? (c :: cs) with
    | some rest => .ok rest
    | none => refuseAt (c :: cs) .restOfLine

/-- Reads all lines; `fuel` bounds their number. -/
def statementsFrom : Nat → List Char → Except Refusal (List Statement)
  | 0, cs => refuseAt cs .restOfLine
  | fuel + 1, cs =>
    match skipGap cs with
    | .error e => .error e
    | .ok [] => .ok []
    | .ok cs =>
      match statement cs with
      | .error e => .error e
      | .ok (s, rest) => ((endLine rest).bind (statementsFrom fuel)).map (s :: ·)

/-- The statements of a document; a byte order mark in front of it does not count. -/
def statements (cs : List Char) : Except Refusal (List Statement) :=
  let cs := match cs with
    | '\uFEFF' :: cs => cs
    | cs => cs
  statementsFrom (cs.length + 1) cs

/-- A document as far as it is read: its tables, and the path of the one that is open. -/
structure Document where
  root : Entries
  current : List (Located String)

namespace Document

/-- Takes a statement in. -/
def add (d : Document) : Statement → Except Refusal Document
  | .assign ⟨⟨path, key⟩, v⟩ =>
    (Table.alter .implied (Table.insert path key v) d.current .header d.root).map
      fun root => { d with root }
  | .openTable header ⟨path, key⟩ =>
    (Table.openTable header path key d.root).map fun root => ⟨root, path ++ [key]⟩
  | .openItem header ⟨path, key⟩ =>
    (Table.openItem header path key d.root).map fun root => ⟨root, path ++ [key]⟩

/-- The table that a text describes. -/
def parse (cs : List Char) : Except Refusal Entries := do
  let d ← (← statements cs).foldlM add ⟨[], []⟩
  return d.root

end Document

end TrackCatalog.Toml
