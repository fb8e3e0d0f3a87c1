/-!
# Paths

A path is text whose parts stand between slashes. The functions here look at the text alone.

* `Path.join`: a path below another one; an absolute path stands for itself.
* `Path.parent?`: the path without its last part. Empty parts, and parts `.` after the first, are
  no parts of their own, so `a//b`, `a/./b` and `a/b/` all have the parent `a`.
* `Path.chain`: a path and the paths above it, by their parts.
* `Path.extension?`: what follows the last dot of a file name.
-/

namespace TrackCatalog.Path

/-- The parts between slashes, empty ones included. -/
def parts (path : String) : List String := (path.toList.splitOn '/').map String.ofList

/-- The path that has these parts. -/
def ofParts (parts : List String) : String :=
  .ofList (List.intercalate ['/'] (parts.map String.toList))

/-- The path starts at the root. -/
def isAbsolute (path : String) : Bool := path.toList.head? = some '/'

/-- The path `path`, taken from the directory `dir`. -/
def join (dir path : String) : String :=
  if isAbsolute path || dir.isEmpty then path
  else if dir.toList.getLast? = some '/' then dir ++ path
  else dir ++ "/" ++ path

/-- Parts from the last to the first, without those at the front that say nothing. -/
def dropEmptyParts : List String → List String
  | p :: q :: rest => if p = "" ∨ p = "." then dropEmptyParts (q :: rest) else p :: q :: rest
  | parts => parts

/-- The path of parts listed from the last to the first; a lone empty part is the root. -/
def ofReversed : List String → String
  | [""] => "/"
  | parts => ofParts parts.reverse

/-- The parts above the last one, both listed from the last to the first. -/
def above : List String → Option (List String)
  | [] => none
  | [p] => if p = "" then none else some []
  | _ :: rest => some (dropEmptyParts rest)

/-- The path without its last part; the root and the empty path have none. -/
def parent? (path : String) : Option String :=
  (above (dropEmptyParts (parts path).reverse)).map ofReversed

/-- The path without slashes at its end. -/
def withoutTrailingSlashes (path : String) : String :=
  .ofList (path.toList.reverse.dropWhile (· = '/')).reverse

/-- The paths above one given by its parts, from the nearest to the farthest, as far as they name
something below the root. All parts are listed from the last to the first; the length of the list
bounds the number of paths. -/
def ancestorsOf : Nat → List String → List (List String)
  | 0, _ => []
  | n + 1, reversed =>
    match above reversed with
    | none => []
    | some up => if (above up).isSome then up :: ancestorsOf n up else []

/-- The parts of a path and of the paths above it, from the nearest to the farthest, as far as they
name something below the root. All parts are listed from the last to the first. -/
def chain (path : String) : List (List String) :=
  let reversed := dropEmptyParts (parts path).reverse
  if (above reversed).isNone then []
  else (parts (withoutTrailingSlashes path)).reverse :: ancestorsOf reversed.length reversed

/-- The path ends in a slash. -/
def hasTrailingSlash (path : String) : Bool := path.toList.getLast? = some '/'

/-- What follows the last dot of a file name, unless nothing stands before that dot. -/
def extension? (name : String) : Option String :=
  if name = ".." then none
  else
    match (name.toList.splitOn '.').reverse with
    | [] => none
    | [_] => none
    | [_, []] => none
    | last :: _ => some (.ofList last)

example : parent? "a/./b/" = some "a" := by decide

example : parent? "./d.bin" = some "." := by decide

example : parent? "/d" = some "/" := by decide

example : extension? ".bin" = none ∧ extension? "a.b.bin" = some "bin" := by decide

end TrackCatalog.Path
