/-!
# Options on a command line

Arguments are read from left to right. `--name` and `-n` are options, `--name=value`, `--name
value`, `-nvalue`, `-n=value` and `-n value` give one a value, and one-letter options may share a
dash. After `--` everything is an operand. An option is given at most once, and a value that starts
with a dash has to be attached to its option.

* `scan`: what the arguments are, one by one.
* `gather`: the options and operands, unless the arguments are refused or ask for information.
-/

namespace TrackCatalog.CommandLine

/-- Why arguments lead to no command. -/
inductive Stop where
  /-- The arguments ask for help or for the version. -/
  | information
  /-- The arguments are refused. -/
  | misuse
  deriving DecidableEq, Repr

/-- What an option does. -/
inductive OptionKind where
  | flag
  /-- Takes a value, which must be acceptable. -/
  | value (accepts : String → Bool)
  | information

/-- An option, by its long name and perhaps a letter. -/
structure OptionSpec where
  long : String
  letter : Option Char
  kind : OptionKind

/-- What an argument turns out to be. -/
inductive Occurrence where
  | option (spec : OptionSpec) (value : String)
  | operand (value : String)
  | refused

/-- The argument is an option and no value; a lone dash is a value. -/
def looksLikeOption (arg : String) : Bool :=
  match arg.toList with
  | '-' :: _ :: _ => true
  | _ => false

/-- The value without the equals sign that attaches it to a letter. -/
def attachedValue (cs : List Char) : String :=
  match cs with
  | '=' :: cs => .ofList cs
  | cs => .ofList cs

/-- What letters behind one dash are, and the option that still waits for its value. -/
def scanLetters (specs : List OptionSpec) : List Char → List Occurrence × Option OptionSpec
  | [] => ([], none)
  | c :: cs =>
    match specs.find? fun s => s.letter = some c with
    | none => ([.refused], none)
    | some spec =>
      match spec.kind with
      | .value _ =>
        if cs.isEmpty then ([], some spec) else ([.option spec (attachedValue cs)], none)
      | _ =>
        let (occurrences, waiting) := scanLetters specs cs
        (.option spec "" :: occurrences, waiting)

/-- What a long option is, and the option that still waits for its value. -/
def scanLong (specs : List OptionSpec) (body : List Char) :
    List Occurrence × Option OptionSpec :=
  let (name, attached) := body.span (· ≠ '=')
  match specs.find? fun s => s.long = .ofList name with
  | none => ([.refused], none)
  | some spec =>
    match spec.kind, attached with
    | .value _, [] => ([], some spec)
    | .value _, _ :: value => ([.option spec (.ofList value)], none)
    | _, [] => ([.option spec ""], none)
    | _, _ :: _ => ([.refused], none)

/-- What one option argument is. -/
def scanOption (specs : List OptionSpec) (arg : String) : List Occurrence × Option OptionSpec :=
  match arg.toList with
  | '-' :: '-' :: body => scanLong specs body
  | _ :: letters => scanLetters specs letters
  | [] => ([.refused], none)

/-- What the arguments are, while an option may be waiting for its value. -/
def scan (specs : List OptionSpec) : Option OptionSpec → List String → List Occurrence
  | none, [] => []
  | some _, [] => [.refused]
  | some spec, arg :: rest =>
    if looksLikeOption arg then [.refused] else .option spec arg :: scan specs none rest
  | none, arg :: rest =>
    if arg = "--" then rest.map .operand
    else if looksLikeOption arg then
      let (occurrences, waiting) := scanOption specs arg
      occurrences ++ scan specs waiting rest
    else .operand arg :: scan specs none rest

/-- The options that were given, with their values, and the operands. -/
structure Gathered where
  options : List (String × String)
  operands : List String

namespace Gathered

/-- Nothing was given. -/
def empty : Gathered := ⟨[], []⟩

/-- The value of an option. -/
def value? (g : Gathered) (long : String) : Option String := g.options.lookup long

/-- The option was given. -/
def has (g : Gathered) (long : String) : Bool := (g.value? long).isSome

/-- Adds an option, which must be new and have an acceptable value. -/
def addOption (g : Gathered) (spec : OptionSpec) (value : String) : Except Stop Gathered :=
  match spec.kind with
  | .information => .error .information
  | .flag =>
    if g.has spec.long then .error .misuse
    else .ok { g with options := g.options ++ [(spec.long, "")] }
  | .value accepts =>
    if g.has spec.long || !accepts value then .error .misuse
    else .ok { g with options := g.options ++ [(spec.long, value)] }

/-- Adds an operand; there are at most `most` of them, and none is empty. -/
def addOperand (most : Nat) (g : Gathered) (value : String) : Except Stop Gathered :=
  if value.isEmpty || most ≤ g.operands.length then .error .misuse
  else .ok { g with operands := g.operands ++ [value] }

/-- Adds what an argument is. -/
def add (most : Nat) (g : Gathered) : Occurrence → Except Stop Gathered
  | .option spec value => g.addOption spec value
  | .operand value => g.addOperand most value
  | .refused => .error .misuse

end Gathered

/-- The options and operands among arguments, with at most `most` operands. -/
def gather (specs : List OptionSpec) (most : Nat) (args : List String) : Except Stop Gathered :=
  (scan specs none args).foldlM (Gathered.add most) .empty

end TrackCatalog.CommandLine
