import TrackCatalog.CommandLine.Program

/-!
# Footprints

Which paths a command looks at, so that a caller can show it just those. The first file that a
command reads may name the others, so there are two rounds.

* `Command.settingsPath?`: the file that is read first.
* `Command.paths`, `Command.listedDirs`: the other paths, and the directories that are listed, for
  a tree that has the first file.
-/

namespace TrackCatalog.CommandLine.Command

/-- The file that a command reads first. -/
def settingsPath? : Command → Option String
  | build args => args.config
  | pack config _ => some config
  | inspect catalog _ => some catalog

/-- The paths a run of the pipeline reads or writes. -/
def pipelinePaths (c : PipelineConfig) : List String :=
  [c.sources.primary.path, c.sources.aliases.path] ++
    (c.sources.supplemental.map OptionalSourceConfig.path).toList ++
    match c.output.layout with
    | .single => [c.destination]
    | .sharded => [tracksDir c.destination, aliasFile c.destination]

/-- The paths a command reads or writes after the first file. -/
def paths (c : Command) (t : FileTree) : List String :=
  match c with
  | build args => (args.pipelineConfig t).toOption.elim [] pipelinePaths
  | pack _ out => [out]
  | inspect _ _ => []

/-- The directories a command lists. -/
def listedDirs (c : Command) (t : FileTree) : List String :=
  match c with
  | build args =>
    (args.pipelineConfig t).toOption.elim [] fun config =>
      if config.output.layout = .sharded then [tracksDir config.destination] else []
  | _ => []

end TrackCatalog.CommandLine.Command
