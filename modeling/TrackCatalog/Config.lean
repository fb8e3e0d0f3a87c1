import TrackCatalog.Files.Fault
import TrackCatalog.Hash
import TrackCatalog.Sectioned.Document
import TrackCatalog.Text.Excerpt
import TrackCatalog.Toml.Shape

/-!
# Failures of reading a configuration

Why a pipeline or pack configuration cannot be used, in one type for both kinds of file.
-/

namespace TrackCatalog

/-- Why a configuration cannot be used. -/
inductive ConfigError where
  | file (path : String) (fault : FileFault)
  /-- The text is no TOML document. -/
  | malformed (excerpt : Text.Excerpt) (reason : Toml.SyntaxError)
  /-- The TOML document does not fit; `representable` says whether all its numbers can be held. -/
  | misfit (excerpt : Text.Excerpt) (reason : Toml.ShapeError) (representable : Bool)
  | document (error : DocumentError)
  | missingSection (name : String)
  | missingField (sectionName key : String)
  | invalidInteger (sectionName key value : String)
  | invalidHash (sectionName : String) (error : HashError)
  deriving DecidableEq, Repr

namespace ConfigError

/-- Where a TOML document fails, with the line that it fails on, and why. -/
def located (excerpt : Text.Excerpt) (reason : String) : String :=
  let place := s!"TOML parse error at line {excerpt.line}, column {excerpt.column}"
  "\n".intercalate (place :: excerpt.render ++ [reason, ""])

/-- The failure in words. -/
def message : ConfigError → String
  | file path fault => s!"I/O error reading {path}: {fault.message}"
  | malformed excerpt reason => "TOML parse error: " ++ located excerpt reason.message
  | misfit excerpt reason _ => "TOML parse error: " ++ located excerpt reason.message
  | document error => error.message
  | missingSection name => s!"missing section [{name}]"
  | missingField sectionName key => s!"missing key '{key}' in [{sectionName}]"
  | invalidInteger sectionName key value =>
    s!"'{key}' in [{sectionName}] is not an integer: '{value}'"
  | invalidHash sectionName error => s!"bad track hash in [{sectionName}]: {error.message}"

/-- What caused the failure, in words, from the outside in. -/
def causes : ConfigError → List String
  | malformed excerpt reason => [located excerpt reason.message]
  | misfit excerpt reason _ => [located excerpt reason.message]
  | invalidHash _ error => [error.message]
  | _ => []

end ConfigError

end TrackCatalog
