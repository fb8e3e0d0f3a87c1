import TrackCatalog.Config
import TrackCatalog.Text.Numeral

/-!
# Required sections and fields

Looking up what a configuration has to hold: what is missing, or is no number, is refused by name.
-/

namespace TrackCatalog

/-- The section with this name, which has to be there. -/
def SectionedDocument.require (d : SectionedDocument) (name : String) :
    Except ConfigError Section :=
  match d.section? name with
  | some s => .ok s
  | none => .error (.missingSection name)

/-- The value of a key, which has to be there. -/
def Section.require (s : Section) (key : String) : Except ConfigError String :=
  match s.get? key with
  | some value => .ok value
  | none => .error (.missingField s.name key)

/-- The number under a key, which has to be there. -/
def Section.requireWord (s : Section) (key : String) : Except ConfigError UInt32 := do
  let value ← s.require key
  match Text.readWord? value with
  | some n => return n
  | none => throw (.invalidInteger s.name key value)

end TrackCatalog
