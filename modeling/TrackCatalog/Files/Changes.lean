import TrackCatalog.Files.Tree

/-!
# Changes between file trees

What has to be done to a file system that looks like one tree to make it look like another.
-/

namespace TrackCatalog

/-- A step from one tree to another. -/
inductive Change where
  | createDir (l : Location)
  | writeFile (l : Location) (bytes : Bytes)
  | removeFile (l : Location)
  deriving DecidableEq, Repr

/-- The step that puts something at a location, unless the like stands there. -/
def Change.toPut? (l : Location) : Option Node → Node → Option Change
  | some (.dir _), .dir _ => none
  | _, .dir _ => some (.createDir l)
  | some (.file old), .file new => if old = new then none else some (.writeFile l new)
  | _, .file new => some (.writeFile l new)

/-- The steps from one tree to another that has all its directories: what is new or other, a
directory before what it holds, then what is gone. -/
def FileTree.changes (before after : FileTree) : List Change :=
  let made := after.entries.filterMap fun (l, n) => Change.toPut? l (before.node? l) n
  let gone := before.entries.filterMap fun (l, _) =>
    if (after.node? l).isSome then none else some (.removeFile l)
  made ++ gone

end TrackCatalog
