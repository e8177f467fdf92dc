import Lexicon.Files.FilePath
import Lexicon.Settings.EnvironmentFile
import Lexicon.Text.Casing
import Lexicon.Fault

/-!
# Configuration

Where documents are looked for, whether types that are not known are refused, and whether the
documents that come with the library can be used. The settings are variables of the environment,
which an environment file may override.
-/

namespace Lexicon

/-- The settings. -/
structure Config where
  paths : List FilePath := []
  strict : Bool := false
  bundled : Bool := true
  deriving Repr, Inhabited

namespace Config

/-- The variable with the directories, separated by colons. -/
def pathVariable : String := "ATLEX_LEXICON_PATH"

/-- The variable that says whether types that are not known are refused. -/
def strictVariable : String := "ATLEX_STRICT_FIELD_TYPES"

/-- The variable that says whether the documents that come with the library can be used. -/
def bundledVariable : String := "ATLEX_INCLUDE_BUNDLED"

/-- The truth value that a text stands for. White space around it and case do not count. -/
def readBool (name value : String) : Except Fault Bool :=
  let word := String.ofList (Text.lower (Text.trim value.toList))
  if ["1", "true", "yes", "on"].contains word then .ok true
  else if ["0", "false", "no", "off", ""].contains word then .ok false
  else .error (.argument (.notBoolean name value))

/-- The truth value of a variable that may have none. -/
def boolOf (known : Entries (Option String)) (name : String) (otherwise : Bool) :
    Except Fault Bool :=
  match (known.find? name).join with
  | some value => readBool name value
  | none => .ok otherwise

/-- The directories that a text lists. -/
def readPaths (s : String) : List FilePath :=
  ((Text.splitOn ':' s.toList).filter (!·.isEmpty)).map fun p => .ofString (String.ofList p)

/-- The settings that variables give; those of the file override those of the environment. -/
def ofVariables (environment file : Entries (Option String)) : Except Fault Config := do
  let known := environment.merge file
  let strict ← boolOf known strictVariable false
  let bundled ← boolOf known bundledVariable true
  return { paths := readPaths ((known.find? pathVariable).join.getD ""), strict, bundled }

/-- The settings of an environment. -/
def ofEnvironment (environment : Entries String) : Except Fault Config :=
  ofVariables (environment.mapValues some) []

/-- The settings of an environment and of the contents of an environment file, in which the
variables of `outside` can be used. -/
def ofEnvironmentAndFile (environment : Entries String) (contents : String)
    (outside : Entries String) : Except Fault Config :=
  ofVariables (environment.mapValues some)
    (EnvironmentFile.read (outside.mapValues some) contents)

end Config

end Lexicon
