import TrackCatalog.Decimal.Shortest
import TrackCatalog.Text.Span

/-!
# TOML values

The values of a TOML document. Tables keep their keys in the order they were given, and remember
how they came about, which decides whether a later line may add to them. Keys and values know the
stretches of the document that they were read from; a table that headers or dotted keys make is read
from the header that opens it, or else from the key that first names it.
-/

namespace TrackCatalog.Toml

open Text (Located)

/-- How a table came about. -/
inductive Origin where
  /-- Opened by a header of its own, or the document itself. -/
  | header
  /-- Named on the way to another header. -/
  | implied
  /-- Named on the way of a dotted key. -/
  | dotted
  /-- Written between braces. -/
  | inline
  deriving DecidableEq, Repr

/-- A value. An array that headers build, table by table, is marked as such. A number whose spelling
names none, or a fraction too great for 64 bits, is kept without its value. -/
inductive Value where
  | string (text : String)
  | integer (value : Option Int)
  | float (value : Option Binary64)
  | boolean (value : Bool)
  | datetime
  | array (ofHeaders : Bool) (items : List (Located Value))
  | table (origin : Origin) (entries : List (Located String × Located Value))

/-- The keys of a table and their values. -/
abbrev Entries := List (Located String × Located Value)

namespace Entries

/-- The value under a key. -/
def get? (es : Entries) (key : String) : Option (Located Value) :=
  (es.find? fun e => e.1.item = key).map Prod.snd

/-- The entries in ascending order of their keys. -/
def sorted (es : Entries) : Entries := es.mergeSort fun a b => a.1.item ≤ b.1.item

end Entries

/-- The key that stands for a date where a table is looked at key by key. -/
def dateKey : String := "$__toml_private_datetime"

end TrackCatalog.Toml
