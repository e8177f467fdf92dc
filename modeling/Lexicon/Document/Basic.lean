import Lexicon.Document.Definition
import Lexicon.Identifier.Nsid
import Lexicon.Schema.Language

/-!
# Documents

A document has an identifier and named definitions. It is read from a value that the schema of
documents accepts; everything that is wrong with another value is a compile error. Two documents are
equal when what was read from them is, whatever else their sources hold.
-/

namespace Lexicon

/-- A document. -/
structure Document where
  id : String
  definitions : Entries Definition
  version : Value
  revision : Value
  description : Value
  /-- The value that the document was read from. -/
  source : Value
  deriving Repr, Inhabited

namespace Document

/-- Whether a value is the version of the language that is understood. -/
def isVersion (v : Value) : Bool :=
  v.same (.int 1) && v.kind != "bool"

/-- Refuses a definition that only the main one may be of the kind of. -/
def checkPlace (id name : String) (definition : Value) : Except Fault Unit :=
  let type := match definition with
    | .object es => Entries.getValue es "type"
    | _ => .null
  if name = mainKey then .ok ()
  else if !type.isKey then .error .wrongType
  else match type.str? with
    | some kind =>
      if Entries.has Language.mainTypes kind then
        .error (.compile ⟨some id, .misplaced kind, some name⟩)
      else .ok ()
    | none => .ok ()

/-- The document that the entries of an object describe. -/
def ofEntries (es : Entries Value) : Except Fault Document := do
  let rawId := es.getValue "id"
  let refuse (reason : CompileReason) : Except Fault Unit :=
    .error (.compile ⟨rawId.str?, reason, none⟩)
  unless isVersion (es.getValue "lexicon") do
    refuse (.unsupportedVersion (es.getValue "lexicon"))
  let id := rawId.str?.getD ""
  unless Nsid.isValid id do
    refuse (.invalidId rawId)
  match es.getValue "defs" with
  | .object definitions => definitions.forM fun e => checkPlace id e.1 e.2
  | _ => pure ()
  match ← Language.document.plainVerdict (.object es) with
  | .error failure => .error (.compile ⟨some id, .malformed failure, none⟩)
  | .ok checked =>
    let es' ← checked.entries
    let definitions ← (← checked.member "defs").entries
    return {
      id
      definitions := ← definitions.mapM fun e => return (e.1, ← Definition.ofValue e.2)
      version := ← checked.member "lexicon"
      revision := es'.getValue "revision"
      description := es'.getValue "description"
      source := .object es }

/-- The document that a value describes. -/
def ofValue : Value → Except Fault Document
  | .object es => ofEntries es
  | _ => .error (.compile ⟨none, .notAnObject, none⟩)

/-- The document that a text describes, given what was read from it. -/
def ofReading (text : List Char) (reading : Except Json.SyntaxError Value) :
    Except Fault Document :=
  match reading with
  | .ok v => ofValue v
  | .error e => .error (.compile ⟨none, .invalidJson e text, none⟩)

/-- The document that a text describes. -/
def ofJson (text : List Char) : Except Fault Document :=
  ofReading text (Json.read text)

/-- The document that the contents of a file describe; a byte order mark may precede them. A
document without an identifier is named by its path. -/
def ofFile (path : String) (contents : List Char) : Except Fault Document :=
  let text := match contents with
    | '\ufeff' :: rest => rest
    | _ => contents
  match ofReading text (Json.readAll text) with
  | .error (.compile ⟨none, reason, _⟩) => .error (.compile ⟨none, .inFile path reason, none⟩)
  | result => result

/-- Whether two documents are equal. -/
def same (a b : Document) : Bool :=
  a.id == b.id && a.definitions.agree Definition.same b.definitions &&
    a.version.same b.version && a.revision.same b.revision && a.description.same b.description

end Document

end Lexicon
