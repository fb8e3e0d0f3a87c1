import TrackCatalog.CommandLine.Options
import TrackCatalog.Hash
import TrackCatalog.Pipeline.Config

/-!
# Invocations

What the program is asked to do: build a catalog, build a pack, or inspect a catalog.

* `Invocation.ofArguments`: the invocation that arguments stand for.
* `BuildArguments.pipelineConfig`: the configuration of a build, from its file and its options.
-/

namespace TrackCatalog.CommandLine

/-- The options of a build; they take precedence over its configuration file. -/
structure BuildArguments where
  config : Option String
  primary : Option String
  supplemental : Option String
  noSupplemental : Bool
  aliases : Option String
  out : Option String
  single : Bool
  deriving DecidableEq, Repr

/-- What to do. -/
inductive Command where
  | build (args : BuildArguments)
  | pack (config out : String)
  | inspect (catalog : String) (hash : Option Hash)
  deriving DecidableEq

/-- What to do, and whether to report details. -/
structure Invocation where
  verbose : Bool
  command : Command
  deriving DecidableEq

/-- The option that asks for details, which every command has. -/
def verboseOption : OptionSpec := ⟨"verbose", some 'v', .flag⟩

/-- The option that asks for help, which every command has. -/
def helpOption : OptionSpec := ⟨"help", some 'h', .information⟩

/-- An option with a path. -/
def pathOption (long : String) (letter : Option Char) : OptionSpec :=
  ⟨long, letter, .value fun path => !path.isEmpty⟩

/-- The options before the command. -/
def programOptions : List OptionSpec :=
  [verboseOption, helpOption, ⟨"version", some 'V', .information⟩]

/-- The options of `build`. -/
def buildOptions : List OptionSpec :=
  [pathOption "config" (some 'c'), pathOption "primary" none, pathOption "supplemental" none,
    ⟨"no-supplemental", none, .flag⟩, pathOption "aliases" none, pathOption "out" (some 'o'),
    ⟨"single", none, .flag⟩, verboseOption, helpOption]

/-- The options of `pack`. -/
def packOptions : List OptionSpec := [pathOption "out" (some 'o'), verboseOption, helpOption]

/-- The options of `inspect`. -/
def inspectOptions : List OptionSpec :=
  [⟨"hash", none, .value fun text => (Hash.ofHex text).isOk⟩, verboseOption, helpOption]

/-- The pack file unless an option names another. -/
def stockPackPath : String := "pack.bin"

/-- Reads the arguments of `build`. -/
def readBuild (args : List String) : Except Stop (Bool × Command) := do
  let g ← gather buildOptions 0 args
  if g.has "supplemental" && g.has "no-supplemental" then throw .misuse
  return (g.has "verbose", .build {
    config := g.value? "config"
    primary := g.value? "primary"
    supplemental := g.value? "supplemental"
    noSupplemental := g.has "no-supplemental"
    aliases := g.value? "aliases"
    out := g.value? "out"
    single := g.has "single" })

/-- Reads the arguments of `pack`. -/
def readPack (args : List String) : Except Stop (Bool × Command) := do
  let g ← gather packOptions 1 args
  match g.operands with
  | [config] => return (g.has "verbose", .pack config ((g.value? "out").getD stockPackPath))
  | _ => throw .misuse

/-- Reads the arguments of `inspect`. -/
def readInspect (args : List String) : Except Stop (Bool × Command) := do
  let g ← gather inspectOptions 1 args
  match g.operands with
  | [catalog] =>
    let hash := (g.value? "hash").bind fun text => (Hash.ofHex text).toOption
    return (g.has "verbose", .inspect catalog hash)
  | _ => throw .misuse

/-- Reads the arguments of `help`, which may name one command. -/
def readHelp (args : List String) : Stop :=
  match args with
  | [] => .information
  | [name] => if name ∈ ["build", "pack", "inspect", "help"] then .information else .misuse
  | _ => .misuse

/-- Reads a command and its arguments. -/
def readCommand (name : String) (args : List String) : Except Stop (Bool × Command) :=
  if name = "build" then readBuild args
  else if name = "pack" then readPack args
  else if name = "inspect" then readInspect args
  else if name = "help" then .error (readHelp args)
  else .error .misuse

namespace Invocation

/-- Reads the options before the command, then the command. -/
def ofArgumentsFrom (g : Gathered) : List String → Except Stop Invocation
  | [] => .error .misuse
  | arg :: rest =>
    if arg = "--" then .error .misuse
    else if looksLikeOption arg then
      match (scanOption programOptions arg).1.foldlM (Gathered.add 0) g with
      | .ok g => ofArgumentsFrom g rest
      | .error stop => .error stop
    else
      (readCommand arg rest).map fun (verbose, command) =>
        { verbose := g.has "verbose" || verbose, command }

/-- The invocation that arguments stand for. -/
def ofArguments (args : List String) : Except Stop Invocation := ofArgumentsFrom .empty args

end Invocation

namespace BuildArguments

/-- The supplemental source that the options leave or name. -/
def supplementalOf (a : BuildArguments) (c : Option OptionalSourceConfig) :
    Option OptionalSourceConfig :=
  if a.noSupplemental then none
  else
    match a.supplemental, c with
    | none, c => c
    | some path, some c => some { c with path }
    | some path, none => some ⟨path, stockHeaderLines, none⟩

/-- A configuration with what the options say in place of what it says. -/
def apply (a : BuildArguments) (c : PipelineConfig) : PipelineConfig :=
  { c with
    sources :=
      { primary := { c.sources.primary with path := a.primary.getD c.sources.primary.path }
        supplemental := a.supplementalOf c.sources.supplemental
        aliases := { c.sources.aliases with path := a.aliases.getD c.sources.aliases.path } }
    output :=
      { c.output with
        dir := a.out.getD c.output.dir
        layout := if a.single then .single else c.output.layout } }

/-- The configuration of a build. -/
def pipelineConfig (a : BuildArguments) (t : FileTree) : Except ConfigError PipelineConfig :=
  (PipelineConfig.loadOrStock t a.config).map a.apply

end BuildArguments

end TrackCatalog.CommandLine
