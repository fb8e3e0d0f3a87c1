/-!
# File faults

The reasons for which a file operation is refused, and their wording.
-/

namespace TrackCatalog

/-- Why a file operation failed. -/
inductive FileFault where
  | notFound
  | alreadyExists
  | notADirectory
  | isADirectory
  | busy
  | nameTooLong
  | invalidName
  | invalidArgument
  | invalidText
  deriving DecidableEq, Repr

/-- The reason in words, with the number of the condition if the system gives one. -/
def FileFault.message : FileFault → String
  | notFound => "No such file or directory (os error 2)"
  | alreadyExists => "File exists (os error 17)"
  | notADirectory => "Not a directory (os error 20)"
  | isADirectory => "Is a directory (os error 21)"
  | busy => "Device or resource busy (os error 16)"
  | nameTooLong => "File name too long (os error 36)"
  | invalidName => "file name contained an unexpected NUL byte"
  | invalidArgument => "Invalid argument (os error 22)"
  | invalidText => "stream did not contain valid UTF-8"

end TrackCatalog
