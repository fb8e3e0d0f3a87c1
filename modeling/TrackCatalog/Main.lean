import TrackCatalog.CommandLine.Footprint
import TrackCatalog.Files.Changes

/-!
# The command line

The only part that touches the outside world. It reads the files that a command looks at into a
file tree, lets the library do its work on the tree, carries the changes out, and prints.
-/

namespace TrackCatalog.CommandLine

/-- What `--help` prints. -/
def helpText : String :=
  "Builds binary track catalogs from community track exports\n\n" ++
    "Commands:\n" ++
    "  build    Build the track catalog and alias table\n" ++
    "  pack     Build a pack descriptor from a pack config file\n" ++
    "  inspect  Print the contents of a single-file catalog\n"

/-- Adds what stands at a location to a tree that holds the directory above it. -/
def observeLocation (t : FileTree) (l : Location) : IO FileTree := do
  if (t.node? l).isSome then return t
  let path := (← IO.currentDir) / l.path
  if !(← path.pathExists) then return t
  if ← path.isDir then return t.putDir l
  return t.putFile l (← IO.FS.readBinFile path).data.toList

/-- Adds what stands along a path. -/
def observe (t : FileTree) (path : String) : IO FileTree := do
  let mut tree := t
  let mut l := if Path.isAbsolute path then [] else t.home
  for part in Path.parts path do
    if part = ".." then
      l := l.dropLast
    else if part ≠ "" ∧ part ≠ "." then
      l := l ++ [part]
      tree ← observeLocation tree l
  return tree

/-- Adds what a directory holds. -/
def observeDir (t : FileTree) (path : String) : IO FileTree := do
  match t.directory path with
  | .error _ => return t
  | .ok l =>
    let mut tree := t
    for child in ← ((← IO.currentDir) / l.path).readDir do
      tree ← observeLocation tree (l ++ [child.fileName])
    return tree

/-- The tree that a command is shown. -/
def observeFor (c : Command) : IO FileTree := do
  let home := (Path.parts (← IO.currentDir).toString).filter (· ≠ "")
  let mut tree := FileTree.bare home
  for n in [0:home.length] do
    tree ← observeLocation tree (home.take (n + 1))
  for path in c.settingsPath?.toList do
    tree ← observe tree path
  let settled := tree
  for path in c.paths settled do
    tree ← observe tree path
  for dir in c.listedDirs settled do
    tree ← observeDir tree dir
  return tree

/-- Carries a change out; a file is prepared beside its place and then put there. -/
def carryOut : Change → IO Unit
  | .createDir l => IO.FS.createDir l.path
  | .writeFile l bytes => do
    let prepared := Location.path (l.dropLast ++ [".new-" ++ l.getLast?.getD ""])
    IO.FS.writeBinFile prepared ⟨bytes.toArray⟩
    IO.FS.rename prepared l.path
  | .removeFile l => IO.FS.removeFile l.path

/-- Does what an invocation asks for. -/
def execute (i : Invocation) : IO UInt32 := do
  let tree ← observeFor i.command
  let p := i.perform .stored tree
  for change in tree.changes p.tree do
    carryOut change
  for event in i.shown p.events do
    IO.eprintln event.render
  IO.print p.output
  IO.eprint p.report
  return p.exitCode.toUInt32

end TrackCatalog.CommandLine

open TrackCatalog.CommandLine in
/-- Runs the program. -/
def main (args : List String) : IO UInt32 := do
  match Invocation.ofArguments args with
  | .ok i => execute i
  | .error stop =>
    if stop = .information then IO.print helpText
    else IO.eprintln "error: the arguments cannot be read; try --help"
    return stop.exitCode.toUInt32
