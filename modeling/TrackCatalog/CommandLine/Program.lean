import TrackCatalog.CommandLine.Invocation
import TrackCatalog.Pack.Config
import TrackCatalog.Pack.Write
import TrackCatalog.Pipeline.Run

/-!
# The program

What an invocation prints, reports and does to the file tree, as a function of the tree.

* `Failure.report`: how a failure and what caused it are shown.
* `inspect`: what a catalog file holds.
* `Invocation.perform`: a whole invocation.
-/

namespace TrackCatalog.CommandLine

/-- A failure in words, and what caused it, from the outside in. -/
structure Failure where
  message : String
  causes : List String
  deriving DecidableEq, Repr

namespace Failure

/-- The failure of a catalog run. -/
def ofCatalog (e : CatalogError) : Failure := ⟨e.message, e.causes⟩

/-- The failure of reading a configuration, said in the words of what it was read for. -/
def ofConfig (purpose : String) (e : ConfigError) : Failure := ⟨purpose, e.message :: e.causes⟩

/-- A text behind a label, its further lines indented as far. -/
def labelled (label : String) (text : String) : String :=
  let indent := String.ofList (List.replicate label.length ' ')
  label ++ ("\n" ++ indent).intercalate ((text.toList.splitOn '\n').map String.ofList)

/-- The causes, numbered if there are several. -/
def causeLines : List String → List String
  | [] => []
  | [cause] => ["", "Caused by:", labelled "    " cause]
  | causes =>
    "" :: "Caused by:" :: causes.zipIdx.map fun (cause, i) =>
      let number := toString i
      labelled (String.ofList (List.replicate (5 - number.length) ' ') ++ number ++ ": ") cause

/-- The report of a failure. -/
def report (f : Failure) : String :=
  "\n".intercalate (("Error: " ++ f.message) :: causeLines f.causes) ++ "\n"

end Failure

/-- What a run of the program leaves and shows. -/
structure Performance where
  tree : FileTree
  events : List Event
  /-- The lines that are printed, also those before a failure. -/
  printed : List String
  failure : Option Failure

/-- The performance of a task whose value is printed. -/
def Performance.ofOutcome {α : Type} (o : Outcome CatalogError α) (lines : α → List String) :
    Performance :=
  match o.result with
  | .ok a => ⟨o.tree, o.events, lines a, none⟩
  | .error e => ⟨o.tree, o.events, [], some (.ofCatalog e)⟩

/-- Builds a catalog. -/
def build (order : ListingOrder) (a : BuildArguments) (t : FileTree) : Performance :=
  match a.pipelineConfig t with
  | .error e => ⟨t, [], [], some (.ofConfig "failed to load pipeline config" e)⟩
  | .ok config =>
    let task : Task CatalogError BuildReport := do
      Task.note (.building config.output.layout config.output.dir)
      config.run order
    .ofOutcome (task.run t) fun r => [s!"Finished writing {r.summary.text} to {r.destination}"]

/-- Builds a pack. -/
def pack (config out : String) (t : FileTree) : Performance :=
  match PackConfig.load t config with
  | .error e => ⟨t, [], [], some (.ofConfig s!"failed to load pack config {config}" e)⟩
  | .ok c =>
    let p := c.toPack
    .ofOutcome ((writePack p out).run t) fun _ =>
      [s!"Finished writing pack \"{p.name}\" ({p.trackCount} tracks, " ++
        s!"{p.unreleasedTracks.length} unreleased) to {out}"]

/-- A byte in hexadecimal, two digits behind a mark. -/
def courseText (course : UInt8) : String :=
  .ofList ['0', 'x', Bytes.hexDigit (course.toNat / 16), Bytes.hexDigit (course.toNat % 16)]

/-- What the program says about the course of a track. -/
def describeCourse (t : Track) : String :=
  match t.course with
  | .ok (some course) => courseText course
  | .ok none => "unassigned"
  | .error e => s!"invalid ({e.message})"

/-- What the program says about a track. -/
def describeTrack (t : Track) : String :=
  let music := match t.music with
    | some n => toString n
    | none => "default"
  s!"{t.hash.toHex}: \"{t.name}\" slot {t.slot} type {t.kind} course {describeCourse t} " ++
    s!"music {music}"

/-- What the program says about the track that a hash leads to. -/
def describeResolved (h : Hash) (t : Track) : List String :=
  (if t.hash = h then [] else [s!"{h.toHex} is an alias of {t.hash.toHex}"]) ++ [describeTrack t]

/-- What the program prints about a catalog, and how it fails on a hash the catalog lacks. -/
def inspectCatalog (path : String) (c : Catalog) (hash : Option Hash) :
    List String × Option Failure :=
  let counts := s!"{path}: {c.tracks.length} tracks, {c.aliases.length} aliases"
  match hash with
  | none => ([counts], none)
  | some h =>
    match c.resolve? h with
    | some t => (counts :: describeResolved h t, none)
    | none => ([counts], some ⟨s!"{h.toHex} is not in the catalog", []⟩)

/-- Prints what a catalog file holds. -/
def inspect (path : String) (hash : Option Hash) (t : FileTree) : Performance :=
  match readBlob .catalog t path with
  | .error e => ⟨t, [], [], some (.ofCatalog e)⟩
  | .ok c =>
    let (printed, failure) := inspectCatalog path c hash
    ⟨t, [], printed, failure⟩

namespace Invocation

/-- Does what an invocation asks for. -/
def perform (order : ListingOrder) (i : Invocation) (t : FileTree) : Performance :=
  match i.command with
  | .build args => build order args t
  | .pack config out => pack config out t
  | .inspect catalog hash => inspect catalog hash t

/-- The events that are shown: details only when they are asked for. -/
def shown (i : Invocation) (events : List Event) : List Event :=
  events.filter fun e => i.verbose || e.level ≠ .debug

end Invocation

/-- The exit code of a performance. -/
def Performance.exitCode (p : Performance) : UInt8 := if p.failure.isSome then 1 else 0

/-- The text that is printed. -/
def Performance.output (p : Performance) : String :=
  String.join (p.printed.map fun line => line ++ "\n")

/-- The report of a failure, if there is one. -/
def Performance.report (p : Performance) : String :=
  match p.failure with
  | some f => f.report
  | none => ""

/-- The exit code when arguments lead to no command. -/
def Stop.exitCode : Stop → UInt8
  | information => 0
  | misuse => 2

end TrackCatalog.CommandLine
