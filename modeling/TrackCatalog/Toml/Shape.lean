import TrackCatalog.Text.Quoted
import TrackCatalog.Toml.SyntaxError
import TrackCatalog.Toml.Value

/-!
# Reading TOML values into a schema

A value is read as a text, a number, a name out of a few, or a record. A record is a table by field
name, or an array by position. What does not fit is refused with what was found and what was
expected; of several misfits in a table the one under the first key, in the order of code points,
is reported. What is refused is located: a key that no field has and a name that is no choice by
the stretch they stand in, and all else by the value that does not fit.

* `Shape.text`, `Shape.natural`, `Shape.choice`: the leaves.
* `Shape.record`: the fields of a record.
-/

namespace TrackCatalog.Toml

open Text (Located)

/-- Why a value does not fit. -/
inductive ShapeError where
  | unknownField (name : String) (expected : List String)
  | missingField (name : String)
  | invalidType (found expected : String)
  | invalidValue (found expected : String)
  /-- A number was looked at that is too great, or whose spelling names none. -/
  | overflow (kind : String)
  | invalidLength (found : Nat) (expected : String)
  | unknownVariant (name : String) (expected : List String)
  /-- A name was expected, by itself or as the only key of a table. -/
  | notAVariant
  | variantCount (none : Bool)
  | variantContent (expected : String)
  deriving DecidableEq, Repr

/-- Names in backquotes, as alternatives. -/
def alternatives (names : List String) : String :=
  match names.map backquoted with
  | [] => ""
  | [a] => a
  | [a, b] => a ++ " or " ++ b
  | many => "one of " ++ ", ".intercalate many

/-- The refusal in words. -/
def ShapeError.message : ShapeError → String
  | unknownField name expected =>
    s!"unknown field {backquoted name}, expected {alternatives expected}"
  | missingField name => s!"missing field {backquoted name}"
  | invalidType found expected => s!"invalid type: {found}, expected {expected}"
  | invalidValue found expected => s!"invalid value: {found}, expected {expected}"
  | overflow kind => kind ++ " number overflowed"
  | invalidLength found expected => s!"invalid length {found}, expected {expected}"
  | unknownVariant name expected =>
    s!"unknown variant {backquoted name}, expected {alternatives expected}"
  | notAVariant => "wanted string or table"
  | variantCount true => "wanted exactly 1 element, found 0 elements"
  | variantCount false => "wanted exactly 1 element, more than 1 element"
  | variantContent expected => s!"expected {expected}"

/-- A stretch of a document that does not fit, and why. -/
abbrev Misfit := Located ShapeError

namespace Shape

/-- A whole number in words, with the width of the words that hold it if 64 bits do not. -/
def describeInteger (i : Int) : Except ShapeError String :=
  let named := s!"integer {backquoted (toString i)}"
  let bound (bits : Nat) : Int := (Nat.pow 2 bits : Nat)
  if -bound 63 ≤ i ∧ i < bound 64 then .ok named
  else if -bound 127 ≤ i ∧ i < bound 127 then .ok (named ++ " as i128")
  else if 0 ≤ i ∧ i < bound 128 then .ok (named ++ " as u128")
  else .error (.overflow "integer")

/-- What a value is, in words. -/
def describe : Value → Except ShapeError String
  | .string s => .ok s!"string {Text.quoteText s}"
  | .integer (some i) => describeInteger i
  | .integer none => .error (.overflow "integer")
  | .float (some x) => .ok s!"floating point {backquoted x.text}"
  | .float none => .error (.overflow "floating-point")
  | .boolean b => .ok s!"boolean {backquoted (toString b)}"
  | .datetime => .ok "map"
  | .array _ _ => .ok "sequence"
  | .table _ _ => .ok "map"

/-- Refuses a value for a reason. -/
def refuse {α : Type} (v : Located Value) (reason : ShapeError) : Except Misfit α :=
  .error ⟨v.span, reason⟩

/-- Refuses a value because it is none of the kind that is expected. -/
def mismatch {α : Type} (v : Located Value) (expected : String) : Except Misfit α :=
  match describe v.item with
  | .ok found => refuse v (.invalidType found expected)
  | .error reason => refuse v reason

/-- Reads a text; `expected` says what it is for. -/
def text (expected : String) (v : Located Value) : Except Misfit String :=
  match v.item with
  | .string s => .ok s
  | _ => mismatch v expected

/-- The number is below zero, and a word of 64 bits with a sign holds it. -/
def isNegativeWord (i : Int) : Bool := decide (i < 0) && decide (-(Nat.pow 2 63 : Nat) ≤ i)

/-- Reads a whole number of 64 bits without a sign. -/
def natural (v : Located Value) : Except Misfit Nat :=
  match v.item with
  | .integer (some i) =>
    if 0 ≤ i ∧ i.toNat < UInt64.size then .ok i.toNat
    else if isNegativeWord i then
      refuse v (.invalidValue s!"integer {backquoted (toString i)}" "usize")
    else mismatch v "usize"
  | _ => mismatch v "usize"

/-- The kind of a value, in one word. -/
def kind : Value → String
  | .string _ => "string"
  | .integer _ => "integer"
  | .float _ => "float"
  | .boolean _ => "boolean"
  | .datetime => "datetime"
  | .array _ _ => "array"
  | .table _ _ => "table"

/-- The value beside a name in a table says nothing. -/
def emptyContent (v : Located Value) : Except Misfit Unit :=
  match v.item with
  | .array _ items => if items.isEmpty then .ok () else refuse v (.variantContent "empty array")
  | .table _ es => if es.isEmpty then .ok () else refuse v (.variantContent "empty table")
  | other => refuse v (.variantContent ("table, found " ++ kind other))

/-- Reads one of a few names: a text, or a table with the name as its only key. -/
def choice {α : Type} (names : List String) (ofName? : String → Option α) (v : Located Value) :
    Except Misfit α :=
  match v.item with
  | .string s => named ⟨v.span, s⟩
  | .table _ [] => refuse v (.variantCount true)
  | .table _ [(name, content)] => do
    let a ← named name
    emptyContent content
    return a
  | .table _ _ => refuse v (.variantCount false)
  | _ => refuse v .notAVariant
where
  /-- The choice of a name. -/
  named (name : Located String) : Except Misfit α :=
    match ofName? name.item with
    | some a => .ok a
    | none => .error ⟨name.span, .unknownVariant name.item names⟩

/-- A field of a record that is read into a value of type `σ`. -/
structure FieldReader (σ : Type) where
  name : String
  read : Located Value → σ → Except Misfit σ

variable {σ : Type}

/-- Reads fields by name. -/
def readNamed (fields : List (FieldReader σ)) (init : σ) (es : Entries) : Except Misfit σ :=
  es.sorted.foldlM
    (fun acc (key, v) =>
      match fields.find? fun f => f.name = key.item with
      | some f => f.read v acc
      | none => .error ⟨key.span, .unknownField key.item (fields.map FieldReader.name)⟩)
    init

/-- Reads fields by position; items beyond the fields do not count. -/
def readPositional (fields : List (FieldReader σ)) (init : σ) (items : List (Located Value)) :
    Except Misfit σ :=
  (fields.zip items).foldlM (fun acc (f, v) => f.read v acc) init

/-- Reads a record of this name into `init`; fields that are not given keep their value there. -/
def record (name : String) (fields : List (FieldReader σ)) (init : σ) (v : Located Value) :
    Except Misfit σ :=
  match v.item with
  | .table _ es => readNamed fields init es
  | .array _ items => readPositional fields init items
  | .datetime => refuse v (.unknownField dateKey (fields.map FieldReader.name))
  | _ => mismatch v ("struct " ++ name)

end Shape

end TrackCatalog.Toml
