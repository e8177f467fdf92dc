import Lexicon.CommandLine.Command
import Lexicon.Files.Glob
import Lexicon.Workspace

/-!
# Running commands

What each command does in a workspace, what it prints, and the code it ends with: zero when all went
well, one when a document or a value is refused, and two when a command cannot do its work.
-/

namespace Lexicon.CommandLine

/-- A workspace with the texts that are read from and printed to the outside. -/
structure Console where
  workspace : Workspace := {}
  input : String := ""
  output : String := ""
  errors : String := ""
  /-- The identifier that is handed out when a new one is asked for. -/
  fresh : Tid := ⟨0, 0, by decide, by decide⟩
  /-- Whether progress is to be reported. -/
  verbose : Bool := false

/-- What is done at a console. -/
abbrev Run := Check Console

/-- How a program ends. -/
inductive Ending
  /-- The command ends with a code. -/
  | finished (code : Nat)
  /-- No command is run: help was asked for, or the arguments are refused. -/
  | stopped (code : Nat)
  deriving DecidableEq, Repr

namespace Run

variable {α : Type}

/-- Does something in the workspace. -/
def work (action : Work α) : Run α := do
  let console ← get
  let (outcome, workspace) := action.run console.workspace
  set { console with workspace }
  liftM outcome

/-- Prints a line. -/
def print (line : String) : Run Unit :=
  modify fun c => { c with output := c.output ++ line ++ "\n" }

/-- Prints a line about an error. -/
def printError (line : String) : Run Unit :=
  modify fun c => { c with errors := c.errors ++ line ++ "\n" }

/-- Does something, where a fault of an expected kind is a result. -/
def attempt (expected : Fault → Bool) (run : Run α) : Run (Except Fault α) :=
  tryCatch (Except.ok <$> run) fun fault =>
    if expected fault then return .error fault else throw fault

end Run

/-- The version of the program. -/
def programVersion : String := "0.3.0"

/-! ## Generating modules -/

/-- Whether a fault only concerns the document that is being compiled. -/
def concernsDocument : Fault → Bool
  | .compile _ | .file _ => true
  | _ => false

/-- The files that a path stands for: itself, or all documents below it if it is a directory. -/
def filesAt (files : FileSystem) (path : FilePath) : Except Fault (List FilePath) := do
  if ← files.test path FileTree.isDirectory then return Glob.searchBelow files path "*.json"
  else return [path]

/-- The files that a pattern stands for; a pattern that matches nothing stands for itself. -/
def filesOf (files : FileSystem) (pattern : String) : Except Fault (List FilePath) := do
  let found := Glob.expand files pattern
  let paths := if found.isEmpty then [pattern] else found
  return (← paths.mapM fun path => filesAt files (.ofString path)).flatten

/-- Generates the module of the document in a file: the identifier of the document, and the path of
the module. -/
def generate (registry : Nat) (output : FilePath) (path : FilePath) : Work (String × FilePath) := do
  let document ← Workspace.readDocument path
  let bundle ← Workspace.within registry (Registry.register · document)
  return (bundle.document.id, ← Workspace.writeModule bundle output)

/-- Generates the module of the document in a file and tells how that went. -/
def compileFile (registry : Nat) (output : FilePath) (path : FilePath) : Run Bool := do
  match ← Run.attempt concernsDocument (Run.work (generate registry output path)) with
  | .ok (id, written) =>
    Run.print (id ++ " -> " ++ written.text)
    return true
  | .error fault =>
    Run.printError (path.text ++ ": " ++ fault.message)
    return false

/-- Generates the modules of all documents that patterns stand for. -/
def runCompile (patterns : List String) (output : String) : Run Nat := do
  let workspace := (← get).workspace
  let found ← patterns.mapM fun pattern => liftM (filesOf workspace.surroundings.files pattern)
  match found.flatten with
  | [] =>
    Run.printError "No Lexicon files found."
    return 1
  | paths =>
    let registry ← Run.work (Workspace.addRegistry [] none)
    let outcomes ← paths.mapM (compileFile registry (.ofString output))
    let failures := outcomes.count false
    if failures = 0 then return 0
    else
      Run.printError
        (toString failures ++ " of " ++ toString paths.length ++ " Lexicon file(s) failed.")
      return 1

/-! ## Checking files -/

/-- Whether a fault lies in a reference or in the documents that it leads to. -/
def concernsReference : Fault → Bool
  | .malformed _ _ | .compile _ | .unresolved _ _ _ => true
  | _ => false

/-- Whether a file cannot be read. -/
def concernsFile : Fault → Bool
  | .file _ => true
  | _ => false

/-- The text of a file, in which every line ends with a newline; a hyphen stands for the input. -/
def readText (file : String) : Run (Except Fault String) := do
  if file = "-" then return .ok (← get).input
  else
    let contents ← Run.attempt concernsFile (Run.work (Workspace.readFile (.ofString file)))
    return contents.map fun s => String.ofList (Text.unifyLineEnds s.toList)

/-- The value in a file, or why there is none. -/
def readValue (file : String) : Run (Except String Value) := do
  match ← readText file with
  | .error fault => return .error fault.message
  | .ok text => return (Json.read text.toList).mapError (·.message text.toList)

/-- Checks a value by the definition that a reference leads to, and tells what was found. -/
def checkValue (registry : Nat) (reference : String) (value : Value) : Run Nat := do
  let verdict := Run.work (Workspace.within registry (Registry.validate · reference value))
  match ← Run.attempt concernsReference verdict with
  | .ok (.ok _) =>
    Run.print "OK"
    return 0
  | .ok (.error failure) =>
    Run.print failure.message
    return 1
  | .error fault =>
    Run.printError fault.message
    return 2

/-- Checks the value in a file. Documents are looked for in the given directories, then in those of
the configuration. -/
def runValidate (reference : String) (file : Option String) (directories : List String) :
    Run Nat := do
  let config ← liftM (Config.ofEnvironment (← get).workspace.surroundings.environment)
  let given := directories.map fun d => Source.directory (.ofString d)
  let registry ← Run.work
    (Workspace.addRegistry (given ++ Registry.sourcesOf config) (some config.strict))
  match file with
  | none => throw .wrongType
  | some file =>
    match ← readValue file with
    | .error reason =>
      Run.printError ("Cannot read " ++ file ++ ": " ++ reason)
      return 2
    | .ok value => checkValue registry reference value

/-! ## The other commands -/

/-- Prints the parts of a timestamp identifier. -/
def runDecodeTid (text : String) : Run Nat := do
  match ← liftM (Tid.decode text) with
  | some tid =>
    Run.print ("timestamp: " ++ toString tid.timestamp)
    Run.print ("clock_id:  " ++ toString tid.clockId)
    Run.print ("datetime:  " ++ tid.moment.text)
    return 0
  | none =>
    Run.printError ("Not a valid TID: " ++ Text.quoted text)
    return 1

/-- Runs a command. -/
def Command.run : Command → Run Nat
  | .compile patterns output => runCompile patterns output
  | .validate reference file directories => runValidate reference file directories
  | .makeTid => do
    Run.print (← get).fresh.text
    return 0
  | .decodeTid text => runDecodeTid text
  | .version => do
    Run.print ("atlex " ++ programVersion)
    return 0
  | .help => do
    modify fun c => { c with output := c.output ++ programInterface.helpText }
    return 0

/-- Runs the program with the given arguments. -/
def run (args : List String) : Run Ending := do
  match Request.read args with
  | .ok request =>
    modify fun c => { c with verbose := request.verbose }
    return .finished (← request.command.run)
  | .error ⟨i, .help⟩ =>
    modify fun c => { c with output := c.output ++ i.helpText }
    return .stopped 0
  | .error ⟨i, .misuse reason⟩ =>
    modify fun c => { c with errors := c.errors ++ i.misuseText reason }
    return .stopped 2

end Lexicon.CommandLine
