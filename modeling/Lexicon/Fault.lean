import Lexicon.Failure
import Lexicon.Json.Reader

/-!
# Faults

Everything that can go wrong, by cause. A malformed identifier, a document that does not compile,
a value that does not validate, and a reference that leads nowhere have wordings that callers show;
the remaining causes are misuse of a value and faults of the file system.
-/

namespace Lexicon

/-- Why a document does not compile. -/
inductive CompileReason
  | notAnObject
  | unsupportedVersion (version : Value)
  | invalidId (id : Value)
  | misplaced (kind : String)
  | malformed (failure : Failure)
  | invalidJson (error : Json.SyntaxError) (text : List Char)
  | inFile (path : String) (reason : CompileReason)
  | arrayWithoutItems
  | invalidReference (reference : Value)
  | unrecognizedField (type : Value)
  | undeclared (group : String) (name : Value)
  | reservedAttribute (key attr : String)
  | sameAttribute (first second attr : String)
  | sameClassName (first second name : String)
  | duplicateKey (key : String)
  | otherDocument
  | unexpectedId (path expected : String)
  | stated (text : String)
  deriving Repr, Inhabited

/-- The wording of a reason. -/
def CompileReason.message : CompileReason → String
  | .notAnObject => "a Lexicon document must be a JSON object"
  | .unsupportedVersion version =>
    "unsupported lexicon version " ++ version.literal ++ " (expected 1)"
  | .invalidId id => "invalid NSID " ++ id.literal
  | .misplaced kind => "'" ++ kind ++ "' definitions are only allowed under 'main'"
  | .malformed failure => failure.message
  | .invalidJson error text => "invalid JSON: " ++ error.message text
  | .inFile path reason => path ++ ": " ++ reason.message
  | .arrayWithoutItems => "array field is missing 'items'"
  | .invalidReference reference => "invalid reference " ++ reference.literal
  | .unrecognizedField type => "unrecognized field type " ++ type.literal
  | .undeclared group name => group ++ " property " ++ name.literal ++ " is not declared"
  | .reservedAttribute key attr =>
    "property " ++ Text.quoted key ++ " maps to attribute " ++ Text.quoted attr ++
      ", which is reserved"
  | .sameAttribute first second attr =>
    "properties " ++ Text.quoted first ++ " and " ++ Text.quoted second ++
      " both map to attribute " ++ Text.quoted attr
  | .sameClassName first second name =>
    "defs " ++ Text.quoted first ++ " and " ++ Text.quoted second ++
      " both map to class name " ++ Text.quoted name
  | .duplicateKey key => "duplicate schema key " ++ Text.quoted key
  | .otherDocument => "a different document with this id is already registered"
  | .unexpectedId path expected => path ++ " was expected to define '" ++ expected ++ "'"
  | .stated text => text

/-- A document that does not compile: its identifier if it has one, the reason, and the definition
that is to blame if there is one. -/
structure CompileError where
  id : Option String
  reason : CompileReason
  definition : Option String := none
  deriving Repr, Inhabited

/-- The wording of a compile error. -/
def CompileError.message (e : CompileError) : String :=
  let document := match e.id with
    | none | some "" => "<unknown lexicon>"
    | some id => id
  let place := match e.definition with
    | none => document
    | some name => document ++ "#" ++ name
  "Cannot compile lexicon '" ++ place ++ "': " ++ e.reason.message

/-- An argument that is out of the range of an operation. -/
inductive ArgumentError
  | negative (n : Int)
  | foreignCharacter (c : Char) (text : String)
  | timestampRange (n : Int)
  | clockIdRange (n : Int)
  | localDatetime
  | keyWithoutCollection
  | unknownFormat (format : Value)
  | mutableDefault (kind attr : String)
  | otherClass (name belongs expected : String)
  | notBoolean (name value : String)
  deriving Repr, Inhabited

/-- The wording of an argument error. -/
def ArgumentError.message : ArgumentError → String
  | .negative n => "Cannot base32-sortable encode a negative integer: " ++ toString n
  | .foreignCharacter c text =>
    "Invalid base32-sortable character " ++ Text.quoted c.toString ++ " in " ++ Text.quoted text
  | .timestampRange n =>
    "TID timestamp must be within 0..18014398509481983, got " ++ toString n
  | .clockIdRange n => "TID clock_id must be within 0..1023, got " ++ toString n
  | .localDatetime => "TID.new() requires a timezone-aware datetime"
  | .keyWithoutCollection => "An at:// URI with a record key must have a collection"
  | .unknownFormat format => "Unknown string format: " ++ format.literal
  | .mutableDefault kind attr =>
    "mutable default <class '" ++ kind ++ "'> for field " ++ attr ++
      " is not allowed: use default_factory"
  | .otherClass name belongs expected =>
    name ++ " belongs to " ++ Text.quoted belongs ++ ", not " ++ Text.quoted expected
  | .notBoolean name value =>
    name ++ " must be a boolean (true/false), got " ++ Text.quoted value

/-- What the file system refuses. -/
inductive FileErrorKind
  | notFound | alreadyExists | notADirectory | isADirectory | nameTooLong
  deriving DecidableEq, Repr, Inhabited

/-- The number and the wording of a kind of file error. -/
def FileErrorKind.text : FileErrorKind → Nat × String
  | .notFound => (2, "No such file or directory")
  | .alreadyExists => (17, "File exists")
  | .notADirectory => (20, "Not a directory")
  | .isADirectory => (21, "Is a directory")
  | .nameTooLong => (36, "File name too long")

/-- A file error and the path it arose at. -/
structure FileError where
  kind : FileErrorKind
  path : String
  deriving DecidableEq, Repr, Inhabited

/-- The wording of a file error. -/
def FileError.message (e : FileError) : String :=
  let (number, text) := e.kind.text
  "[Errno " ++ toString number ++ "] " ++ text ++ ": " ++ Text.quoted e.path

/-- Everything that can go wrong. -/
inductive Fault
  /-- A text does not have the form of an identifier of the given kind. -/
  | malformed (kind : String) (value : Value)
  | compile (error : CompileError)
  | invalid (failure : Failure)
  /-- No definition is found; `available` lists the definitions of a document that is. -/
  | unresolved (nsid fragment : String) (available : List String)
  | argument (error : ArgumentError)
  | file (error : FileError)
  /-- No document with this identifier comes with the library. -/
  | notBundled (id : String)
  /-- A value of a kind that the operation has no meaning for. -/
  | wrongType
  | missingKey
  | noAttribute
  | outOfRange
  /-- References lead round in a circle without reaching a part of the value. -/
  | endless
  deriving Repr, Inhabited

/-- The wording of a reference that leads nowhere. -/
def unresolvedMessage (nsid fragment : String) (available : List String) : String :=
  let target := if fragment = "main" then nsid else nsid ++ "#" ++ fragment
  let lines := if available.isEmpty then
      ["No lexicon with id '" ++ nsid ++ "' is registered. Register the document or add a " ++
        "source that provides it."]
    else ("Definitions available in " ++ nsid ++ ":") :: available.map ("  - " ++ ·)
  "\n".intercalate (("Cannot resolve lexicon reference '" ++ target ++ "'") :: "" :: lines)

/-- The wording of a missing bundled document: the file that was looked for. -/
def notBundledMessage (id : String) : String :=
  let parts := id.splitOn "."
  "No bundled lexicon for '" ++ id ++ "'. Expected " ++ "/".intercalate parts.dropLast ++ "/" ++
    parts.getLastD "" ++ ".json in atlex.lexicons."

/-- The wording of a fault; misuse of a value has none. -/
def Fault.message : Fault → String
  | .malformed kind value => "Malformed " ++ kind ++ ": " ++ value.literal
  | .compile error => error.message
  | .invalid failure => failure.message
  | .unresolved nsid fragment available => unresolvedMessage nsid fragment available
  | .argument error => error.message
  | .file error => error.message
  | .notBundled id => notBundledMessage id
  | .wrongType | .missingKey | .noAttribute | .outOfRange | .endless => ""

end Lexicon
