import Lexicon.CommandLine.Interface

/-!
# Commands

What the program can be asked to do, and how its arguments ask for it. The arguments after the name
of a command are read by an interface of its own; what it leaves over is refused together with what
is left over before it.
-/

namespace Lexicon.CommandLine

/-- What the program is asked to do. -/
inductive Command
  | compile (patterns : List String) (output : String)
  /-- The file is absent where its argument is but a mark between arguments. -/
  | validate (reference : String) (file : Option String) (directories : List String)
  | makeTid
  | decodeTid (text : String)
  | version
  | help
  deriving Repr

/-- A command, and whether its progress is to be reported. -/
structure Request where
  command : Command
  verbose : Bool
  deriving Repr

/-- The switch that every interface has. -/
def helpSwitch : Switch :=
  ⟨["-h", "--help"], .help⟩

/-- The names of the commands. -/
def commandNames : List String :=
  ["compile", "validate", "tid", "version"]

/-- The interface of the whole program. -/
def programInterface : Interface where
  program := "atlex"
  usage := "atlex [-h] [--version] [--verbose] \x7bcompile,validate,tid,version\x7d ..."
  help := "
AT Protocol Lexicon compiler and validator

positional arguments:
  \x7bcompile,validate,tid,version\x7d
                        Available commands
    compile             Generate Python modules from Lexicon JSON files
    validate            Validate a JSON document against a Lexicon definition
    tid                 Generate or decode a TID
    version             Show version information

options:
  -h, --help            show this help message and exit
  --version             Show version information
  --verbose, -v         Log progress to stderr
"
  switches := [helpSwitch, ⟨["--version"], .flag⟩, ⟨["--verbose", "-v"], .flag⟩]
  operands := [⟨"command", .command commandNames⟩]

/-- The interface of the command that generates modules. -/
def compileInterface : Interface where
  program := "atlex compile"
  usage := "atlex compile [-h] [--output OUTPUT] paths [paths ...]"
  help := "
positional arguments:
  paths                 Lexicon JSON files, directories or glob patterns

options:
  -h, --help            show this help message and exit
  --output OUTPUT, -o OUTPUT
                        Directory the generated modules are written to
                        (default: .)
"
  switches := [helpSwitch, ⟨["--output", "-o"], .value⟩]
  operands := [⟨"paths", .many⟩]

/-- The interface of the command that checks a file. -/
def validateInterface : Interface where
  program := "atlex validate"
  usage := "atlex validate [-h] [--lexicon-dir LEXICON_DIR] ref file"
  help := "
positional arguments:
  ref                   Lexicon reference, e.g. app.bsky.feed.post or
                        app.bsky.feed.post#replyRef
  file                  JSON file to validate ('-' reads stdin)

options:
  -h, --help            show this help message and exit
  --lexicon-dir LEXICON_DIR
                        Directory to load referenced Lexicons from
                        (repeatable)
"
  switches := [helpSwitch, ⟨["--lexicon-dir"], .value⟩]
  operands := [⟨"ref", .one⟩, ⟨"file", .one⟩]

/-- The interface of the command on timestamp identifiers. -/
def tidInterface : Interface where
  program := "atlex tid"
  usage := "atlex tid [-h] [--decode TID]"
  help := "
options:
  -h, --help    show this help message and exit
  --decode TID  Decode TID into its timestamp and clock id
"
  switches := [helpSwitch, ⟨["--decode"], .value⟩]
  operands := []

/-- The interface of the command that prints the version. -/
def versionInterface : Interface where
  program := "atlex version"
  usage := "atlex version [-h]"
  help := "
options:
  -h, --help  show this help message and exit
"
  switches := [helpSwitch]
  operands := []

/-- The interface of a command. -/
def interfaceOf (command : String) : Interface :=
  match command with
  | "compile" => compileInterface
  | "validate" => validateInterface
  | "tid" => tidInterface
  | _ => versionInterface

/-- What the arguments of a command ask for. -/
def commandOf (name : String) (a : Arguments) : Command :=
  match name with
  | "compile" => .compile (a.values "paths") ((a.values "--output").getLastD ".")
  | "validate" =>
    .validate ((a.values "ref").headD "") (a.values "file").head? (a.values "--lexicon-dir")
  | "tid" =>
    match (a.values "--decode").getLast? with
    | some text => .decodeTid text
    | none => .makeTid
  | _ => .version

/-- Why the arguments of the program are not read to their end, and by which interface. -/
structure Refusal where
  interface : Interface
  stop : Stop
  deriving Repr

/-- What the arguments of the program ask for. -/
def Request.read (args : List String) : Except Refusal Request := do
  let whole ← (programInterface.read args).mapError (⟨programInterface, ·⟩)
  let verbose := whole.has "--verbose"
  let (command, left) ← match whole.values "command" with
    | [] => pure (Command.help, [])
    | name :: rest =>
      let i := interfaceOf name
      let a ← (i.read rest).mapError (⟨i, ·⟩)
      pure (commandOf name a, a.extras)
  let extras := whole.extras ++ left
  unless extras.isEmpty do
    throw ⟨programInterface, .misuse (.unrecognized extras)⟩
  return ⟨if whole.has "--version" then .version else command, verbose⟩

end Lexicon.CommandLine
