/-!
# Output layouts

A catalog is written as one file, or as one file per track beside an alias table.
-/

namespace TrackCatalog

/-- How a catalog is laid out on disk. -/
inductive Layout where
  | sharded
  | single
  deriving DecidableEq, Repr

namespace Layout

/-- The layout's name in a configuration. -/
def name : Layout → String
  | sharded => "sharded"
  | single => "single"

/-- The layout's name in the log. -/
def tag : Layout → String
  | sharded => "Sharded"
  | single => "Single"

/-- The layout of a name. -/
def ofName? (name : String) : Option Layout :=
  if name = "sharded" then some sharded else if name = "single" then some single else none

end Layout

end TrackCatalog
