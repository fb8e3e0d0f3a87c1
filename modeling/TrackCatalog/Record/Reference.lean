import TrackCatalog.Record.Fields

/-!
# Reference lines

A line of the alias reference has six fields, of which three count: `hash|id|_|_|flags|_`. The
flags are kept as written.
-/

namespace TrackCatalog

/-- One line of the alias reference: a hash, and the track it once was. -/
structure Reference where
  hash : Hash
  externalId : UInt32
  flags : String
  deriving DecidableEq

namespace Reference

/-- Reads a reference from the fields of a line. -/
def ofFields : List String → Except RecordError Reference
  | [hash, id, _, _, flags, _] => do
    let hash ← Record.readHash hash
    let externalId ← Record.readNumber .externalId id
    return { hash, externalId, flags }
  | fs => .error (.fieldCount 6 fs.length)

/-- Reads a reference line. -/
def ofLine (line : String) : Except RecordError Reference := ofFields (Record.fields line)

/-- A line whose first field is blank is a remark and no reference. -/
def isRemark (line : String) : Bool :=
  match Record.fields line with
  | first :: _ => (Text.trim first).isEmpty
  | [] => true

end Reference

end TrackCatalog
