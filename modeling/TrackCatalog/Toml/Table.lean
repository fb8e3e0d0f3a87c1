import TrackCatalog.Toml.SyntaxError
import TrackCatalog.Toml.Value

/-!
# Building TOML tables

Headers and dotted keys name a table by the keys that lead to it. On the way missing tables are
made, and the way goes through the last table of an array that headers build. A dotted key may not
lead through a table that has a header of its own; a table that it leads through is from then on one
that dotted keys made, and no header may open it. Nothing may lead into a table written between
braces or into any other value.

* `passed`: what a table is once a path leads through it.
* `alter`: changes the table at the end of a path.
* `insert`: adds a key and its value, each key once.
* `openTable`, `openItem`: what a header does.
-/

namespace TrackCatalog.Toml.Table

open Text (Located Span)

/-- The entries with another value for a key that is there. -/
def replace (key : String) (v : Located Value) (es : Entries) : Entries :=
  es.map fun e => if e.1.item = key then (e.1, v) else e

/-- Refuses a key that is there already. -/
def refuse {α : Type} (key : Located String) : Except Refusal α :=
  .error ⟨key.span, .duplicateKey⟩

/-- The origin of a table through which a path leads whose missing tables get the origin `made`,
unless no such path may lead there. -/
def passed (made : Origin) : Origin → Option Origin
  | .header => if made = .dotted then none else some .header
  | .implied => if made = .dotted then some .dotted else some .implied
  | .dotted => some .dotted
  | .inline => none

/-- Changes the table at the end of a path that starts in a table of this origin. Missing tables
get the origin `made`. -/
def alter (made : Origin) (change : Origin → Entries → Except Refusal Entries) :
    List (Located String) → Origin → Entries → Except Refusal Entries
  | [], origin, es => change origin es
  | key :: path, _, es =>
    match es.get? key.item with
    | none =>
      (alter made change path made []).map fun sub => es ++ [(key, ⟨key.span, .table made sub⟩)]
    | some ⟨span, .table origin sub⟩ =>
      match passed made origin with
      | none => refuse key
      | some origin =>
        (alter made change path origin sub).map fun sub =>
          replace key.item ⟨span, .table origin sub⟩ es
    | some ⟨span, .array true items⟩ =>
      match items.reverse with
      | ⟨last, .table origin sub⟩ :: before =>
        (alter made change path origin sub).map fun sub =>
          replace key.item ⟨span, .array true (⟨last, .table origin sub⟩ :: before).reverse⟩ es
      | _ => refuse key
    | some _ => refuse key

/-- Adds a key and its value below a dotted path. A table that dotted keys made takes no plain
keys, and only such a table takes dotted ones. -/
def insert (path : List (Located String)) (key : Located String) (v : Located Value)
    (origin : Origin) (es : Entries) : Except Refusal Entries :=
  alter .dotted
    (fun origin es =>
      if decide (origin = .dotted) = path.isEmpty then refuse key
      else if (es.get? key.item).isSome then refuse key
      else .ok (es ++ [(key, v)]))
    path origin es

/-- Opens a table by its header: a new one, or one that other headers led through. -/
def openTable (header : Span) (path : List (Located String)) (key : Located String)
    (root : Entries) : Except Refusal Entries :=
  alter .implied
    (fun _ es =>
      match es.get? key.item with
      | none => .ok (es ++ [(key, ⟨header, .table .header []⟩)])
      | some ⟨_, .table .implied sub⟩ =>
        let opened := (key, ⟨header, .table .header sub⟩)
        .ok (es.map fun e => if e.1.item = key.item then opened else e)
      | some _ => refuse key)
    path .header root

/-- Opens the next table of an array by its header. -/
def openItem (header : Span) (path : List (Located String)) (key : Located String)
    (root : Entries) : Except Refusal Entries :=
  let opened : Located Value := ⟨header, .table .header []⟩
  alter .implied
    (fun _ es =>
      match es.get? key.item with
      | none => .ok (es ++ [(key, ⟨header, .array true [opened]⟩)])
      | some ⟨span, .array true items⟩ =>
        .ok (replace key.item ⟨span, .array true (items ++ [opened])⟩ es)
      | some _ => refuse key)
    path .header root

end TrackCatalog.Toml.Table
