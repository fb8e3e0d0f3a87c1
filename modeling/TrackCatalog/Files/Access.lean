import TrackCatalog.Files.Fault
import TrackCatalog.Files.Path
import TrackCatalog.Files.Tree

/-!
# Access by path

The operations of a file system that the library uses, each refused for the same reasons as there.
A path is followed part by part, and every part but the last has to name a directory.

* `Place`: where a walk through a tree has come to.
* `FileTree.resolve`: the place that a path leads to.
* `FileTree.open?`, `readFile`, `readText`: reading.
* `FileTree.createDirs`: creates a directory and those above it.
* `FileTree.replaceFile`: puts a whole file in place at once, new or over an old one.
* `FileTree.removeFile`: takes a file away.
-/

namespace TrackCatalog

/-- The longest path, in bytes. -/
def maxPath : Nat := 4095

/-- Where a walk through a tree has come to. -/
structure Place where
  /-- What stands there. -/
  here : Option Node
  /-- The way back: the directories that were left, the nearest first, each with the name that was
  taken in it. -/
  back : List (String × Contents)

namespace Place

/-- The location of the place. -/
def location (p : Place) : Location := (p.back.map Prod.fst).reverse

/-- The place under a name. -/
def enter (p : Place) (name : String) : Place :=
  match p.here with
  | some (.dir held) => ⟨held.lookup name, (name, held) :: p.back⟩
  | _ => ⟨none, (name, []) :: p.back⟩

/-- The directory that holds the place; the root holds itself. -/
def leave (p : Place) : Place :=
  match p.back with
  | [] => p
  | (_, held) :: back => ⟨some (.dir held), back⟩

/-- Follows one part of a path. -/
def follow (p : Place) (part : String) : Except FileFault Place :=
  match p.here with
  | none => .error .notFound
  | some (.file _) => .error .notADirectory
  | some (.dir _) =>
    if part = "" ∨ part = "." then .ok p
    else if part = ".." then .ok p.leave
    else if maxName < part.utf8ByteSize then .error .nameTooLong
    else .ok (p.enter part)

/-- Follows parts in turn. -/
def walk (p : Place) (parts : List String) : Except FileFault Place := parts.foldlM follow p

end Place

namespace FileTree

/-- The root as a place. -/
def root (t : FileTree) : Place := ⟨some (.dir t.contents), []⟩

/-- The place where a path starts: the root or the home. -/
def start (t : FileTree) (fromRoot : Bool) : Place :=
  if fromRoot then t.root else t.home.foldl Place.enter t.root

/-- Why a text cannot be a path. -/
def pathFault? (path : String) : Option FileFault :=
  if path.toList.contains '\x00' then some .invalidName
  else if path.isEmpty then some .notFound
  else if maxPath < path.utf8ByteSize then some .nameTooLong
  else none

/-- The place that a path leads to; nothing needs to stand there. -/
def resolve (t : FileTree) (path : String) : Except FileFault Place :=
  match pathFault? path with
  | some e => .error e
  | none => (t.start (Path.isAbsolute path)).walk (Path.parts path)

/-- What stands where a path leads. -/
def open? (t : FileTree) (path : String) : Except FileFault Node :=
  match t.resolve path with
  | .error e => .error e
  | .ok p =>
    match p.here with
    | some n => .ok n
    | none => .error .notFound

/-- The bytes of the file at a path. -/
def readFile (t : FileTree) (path : String) : Except FileFault Bytes :=
  match t.open? path with
  | .error e => .error e
  | .ok (.dir _) => .error .isADirectory
  | .ok (.file bytes) => .ok bytes

/-- The text of the file at a path. -/
def readText (t : FileTree) (path : String) : Except FileFault String :=
  match t.readFile path with
  | .error e => .error e
  | .ok bytes =>
    match Bytes.text? bytes with
    | some text => .ok text
    | none => .error .invalidText

/-- The location of the directory at a path. -/
def directory (t : FileTree) (path : String) : Except FileFault Location :=
  match t.resolve path with
  | .error e => .error e
  | .ok p =>
    match p.here with
    | some (.dir _) => .ok p.location
    | some (.file _) => .error .notADirectory
    | none => .error .notFound

/-- Creates the directory that parts lead to, listed from the last to the first, unless it is there
already. -/
def ensureDir (t : FileTree) (fromRoot : Bool) (reversed : List String) :
    Except FileFault FileTree :=
  match (t.start fromRoot).walk reversed.reverse with
  | .error e => .error e
  | .ok p =>
    match p.here with
    | none => .ok (t.putDir p.location)
    | some (.dir _) => .ok t
    | some (.file _) => .error .alreadyExists

/-- Creates the nearest of these directories that can be created, or finds one that is there, and
gives those before it, the last first, in front of those that are missing already. -/
def climb (t : FileTree) (fromRoot : Bool) (missing : List (List String)) :
    List (List String) → Except FileFault (FileTree × List (List String))
  | [] => .ok (t, missing)
  | reversed :: above =>
    match t.ensureDir fromRoot reversed with
    | .ok t => .ok (t, missing)
    | .error .notFound => t.climb fromRoot (reversed :: missing) above
    | .error e => .error e

/-- Creates directories in turn, as far as it goes. -/
def descend (t : FileTree) (fromRoot : Bool) :
    List (List String) → FileTree × Except FileFault Unit
  | [] => (t, .ok ())
  | reversed :: below =>
    match t.ensureDir fromRoot reversed with
    | .ok t => t.descend fromRoot below
    | .error e => (t, .error e)

/-- Creates directories, given from the nearest to the farthest: the first that can be created, and
then those before it. -/
def createChain (t : FileTree) (fromRoot : Bool) (chain : List (List String)) :
    FileTree × Except FileFault Unit :=
  match t.climb fromRoot [] chain with
  | .ok (t, missing) => t.descend fromRoot missing
  | .error e => (t, .error e)

/-- Creates a directory and the missing ones above it. A path that names nothing below the root
needs none. -/
def createDirs (t : FileTree) (path : String) : FileTree × Except FileFault Unit :=
  match Path.chain path with
  | [] => (t, .ok ())
  | chain =>
    match pathFault? path with
    | some e => (t, .error e)
    | none => t.createChain (Path.isAbsolute path) chain

/-- The location that a file takes which is moved to a path. -/
def target (t : FileTree) (path : String) : Except FileFault Location :=
  match pathFault? path with
  | some .invalidName => .error .invalidArgument
  | some e => .error e
  | none =>
    match (Path.parts (Path.withoutTrailingSlashes path)).reverse with
    | [] => .error .busy
    | last :: above =>
      match (t.start (Path.isAbsolute path)).walk (above.reverse ++ [""]) with
      | .error e => .error e
      | .ok p =>
        if last = "" ∨ last = "." ∨ last = ".." then .error .busy
        else if maxName < last.utf8ByteSize then .error .nameTooLong
        else if Path.hasTrailingSlash path then .error .notADirectory
        else
          match (p.enter last).here with
          | some (.dir _) => .error .isADirectory
          | _ => .ok (p.enter last).location

/-- The directory that holds what stands at a path, where the new file is prepared. -/
def workDir (path : String) : String :=
  match Path.parent? path with
  | some parent => if parent.isEmpty then "." else parent
  | none => "."

/-- The path from the root of a file that is prepared in a directory. The end of its name differs
from one file to the next, but never its length. -/
def preparedPath (t : FileTree) (dir : String) : String :=
  Path.join (Path.join t.home.path dir) ".tmp000000"

/-- The location of the directory at a path, if a file can be prepared in it. -/
def preparedDir (t : FileTree) (dir : String) : Except FileFault Location :=
  match pathFault? (t.preparedPath dir) with
  | some e => .error e
  | none => t.directory dir

/-- Puts a file at a path in one step: it is prepared in the directory that it goes to and then
moved to its place, so readers see the old file or the new one, never a part. Bytes that are more
than any file holds are refused while it is prepared. A refusal names the path that it is about. -/
def replaceFile (t : FileTree) (path : String) (bytes : Bytes) :
    Except (String × FileFault) FileTree :=
  match t.preparedDir (workDir path) with
  | .error e => .error (workDir path, e)
  | .ok _ =>
    if maxFile < bytes.length then .error (t.preparedPath (workDir path), .invalidArgument)
    else
      match t.target path with
      | .error e => .error (path, e)
      | .ok l => .ok (t.putFile l bytes)

/-- Takes the file at a path away. -/
def removeFile (t : FileTree) (path : String) : Except FileFault FileTree :=
  match t.resolve path with
  | .error e => .error e
  | .ok p =>
    match p.here with
    | some (.dir _) => .error .isADirectory
    | some (.file _) => .ok (t.erase p.location)
    | none => .error .notFound

end FileTree

end TrackCatalog
