import TrackCatalog.Blob
import TrackCatalog.Files.Fault
import TrackCatalog.Record.Fields

/-!
# Failures of a catalog run

Every way in which reading, assembling or writing a catalog fails, with the words for it and the
words for what caused it.
-/

namespace TrackCatalog

/-- Why a catalog run stops. -/
inductive CatalogError where
  /-- A source file is missing; the supplemental source alone may be. -/
  | sourceNotFound (path : String)
  | file (path : String) (fault : FileFault)
  /-- A line of a source is no record; lines are counted from 1. -/
  | malformedRecord (path : String) (line : Nat) (error : RecordError)
  /-- A reference names an external id that no track carries. -/
  | unknownExternalId (externalId : UInt32) (path : String) (line : Nat)
  | invalidBlob (error : BlobError)
  deriving DecidableEq, Repr

namespace CatalogError

/-- The failure in words. -/
def message : CatalogError → String
  | sourceNotFound path => s!"source not found: {path}"
  | file path fault => s!"I/O error on {path}: {fault.message}"
  | malformedRecord path line error => s!"{path}:{line}: malformed record: {error.message}"
  | unknownExternalId externalId path line => s!"{path}:{line}: unknown external id {externalId}"
  | invalidBlob error => s!"invalid blob: {error.message}"

/-- What caused the failure, in words, from the outside in. -/
def causes : CatalogError → List String
  | sourceNotFound _ => []
  | file _ fault => [fault.message]
  | malformedRecord _ _ error => [error.message]
  | unknownExternalId .. => []
  | invalidBlob error => [error.message]

end CatalogError

end TrackCatalog
