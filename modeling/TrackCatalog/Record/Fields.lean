import TrackCatalog.Hash
import TrackCatalog.Text.Blank
import TrackCatalog.Text.Numeral

/-!
# Fields of a record line

A record is one line of fields between bars. Hashes and numbers are read without the blanks
around them, and a line is refused as a whole when one of them cannot be read.
-/

namespace TrackCatalog

/-- The number fields of a record, by what they hold. -/
inductive NumberField where
  | externalId
  | slot
  | kind
  | music
  deriving DecidableEq, Repr

/-- The name of a number field in messages. -/
def NumberField.label : NumberField → String
  | externalId => "external id"
  | slot => "slot"
  | kind => "type"
  | music => "music"

/-- Why a line is no record. -/
inductive RecordError where
  | fieldCount (expected found : Nat)
  | invalidInteger (field : NumberField) (value : String)
  | invalidHash (error : HashError)
  deriving DecidableEq, Repr

/-- The refusal in words. -/
def RecordError.message : RecordError → String
  | fieldCount expected found => s!"expected {expected} fields, found {found}"
  | invalidInteger field value => s!"field '{field.label}' is not an integer: '{value}'"
  | invalidHash error => error.message

namespace Record

/-- The mark between two fields. -/
def delimiter : Char := '|'

/-- The fields of a line; a line without a bar is one field. -/
def fields (line : String) : List String := (line.toList.splitOn delimiter).map String.ofList

/-- The line that has these fields. -/
def ofFields (fs : List String) : String :=
  .ofList (List.intercalate [delimiter] (fs.map String.toList))

/-- Reads a number field; the refusal shows it as it stands in the line. -/
def readNumber (field : NumberField) (value : String) : Except RecordError UInt32 :=
  match Text.readWord? (Text.trim value) with
  | some n => .ok n
  | none => .error (.invalidInteger field value)

/-- Reads a hash field. -/
def readHash (value : String) : Except RecordError Hash :=
  (Hash.ofHex (Text.trim value)).mapError .invalidHash

end Record

end TrackCatalog
