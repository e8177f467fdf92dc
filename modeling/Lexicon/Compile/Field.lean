import Lexicon.Document.Definition
import Lexicon.FieldType
import Lexicon.Schema.Basic
import Lexicon.Trace

/-!
# Compiling fields

A field becomes the schema of its values and their type. Of what a field says about its values, a
fixed value counts before a list of allowed ones, and that before everything else. A type that is
not known is refused where types are strict, and otherwise accepts any value with a warning.
-/

namespace Lexicon

/-- The schema of a field and the type of its values. -/
structure CompiledField where
  schema : Schema
  type : FieldType
  deriving Repr, Inhabited

namespace Field

/-- An option, unless it is absent or null. -/
def option? (f : Field) (name : String) : Option Value :=
  (f.option name).present?

/-- The bounds that two options give. -/
def bounds (f : Field) (lower upper : String) : Bounds :=
  ⟨f.option? lower, f.option? upper⟩

/-- The elements of an option; none if it is absent. -/
def elements (f : Field) (name : String) : Except Fault (List Value) :=
  ((f.options.find? name).getD (.list [])).elements

/-- The schema of a fixed value or of a list of allowed values. -/
def constSchema? (f : Field) : Except Fault (Option Schema) :=
  match f.options.find? "const", f.options.find? "enum" with
  | some value, _ => .ok (some (.literal value))
  | none, some values => return some (.enum (← values.elements))
  | none, none => .ok none

/-- A schema with the default of a field, if it has one. -/
def addDefault (f : Field) (s : Schema) : Schema :=
  match f.option? "default" with
  | some value => .withDefault s value
  | none => s

/-- The format that a field asks for. -/
def format? (f : Field) : Except Fault (Option Format) :=
  match f.option? "format" with
  | none => .ok none
  | some v =>
    if !v.isKey then .error .wrongType
    else match v.str?.bind Format.ofName? with
      | some format => .ok (some format)
      | none => .error (.argument (.unknownFormat v))

/-- What a text field asks for where no value is fixed. -/
def textRules (f : Field) : Except Fault TextRules := do
  return {
    format := ← f.format?
    bytes := f.bounds "minLength" "maxLength"
    graphemes := f.bounds "minGraphemes" "maxGraphemes" }

/-- The schema of a text field, its default apart. -/
def stringSchema (f : Field) : Except Fault Schema := do
  match ← f.constSchema? with
  | some s => return s
  | none => return .string (← f.textRules)

/-- A text field: its schema, and the values that are known to occur. -/
def compileString (f : Field) : Except Fault CompiledField := do
  let schema ← f.stringSchema
  return ⟨f.addDefault schema, .string (f.option "format") (← f.elements "knownValues")⟩

/-- The reference that a value stands for in a document. -/
def readReference (nsid : String) (v : Value) : Except Fault Reference :=
  match v with
  | .str s =>
    match Reference.read s (some nsid) with
    | .ok target => .ok target
    | .error _ => .error (.compile ⟨some nsid, .invalidReference v, none⟩)
  | _ => .error .noAttribute

/-- The media types that a field takes. -/
def mediaPattern (accept : Value) : Except Fault MediaPattern := do
  if accept.isTrue then
    if ← Value.isElement (.str "*/*") accept then return .any
    let globs ← accept.elements
    return .globs (← globs.mapM fun g =>
      match g with
      | .str s => pure s
      | _ => throw .wrongType)
  else return .any

/-- An object with a text under `$link`. -/
def linkSchema : Schema :=
  .fields [("$link", .required .text)]

/-- A blob: an object with a reference, a media type and a size, or one of an older form with a
content identifier and a media type. -/
def blobSchema (pattern : MediaPattern) (maxSize : Option Value) : Schema :=
  let mediaType := Schema.required (.string { pattern := some pattern })
  .anyOf [
    .fields [
      ("$type", .required (.literal (.str "blob"))),
      ("ref", .required linkSchema),
      ("mimeType", mediaType),
      ("size", .required (.integer ⟨some (.int 0), maxSize⟩))],
    .fields [("cid", .required .text), ("mimeType", mediaType)]] "blob"

/-- A blob field, with the media types and the size it is limited to. -/
def compileBlob (f : Field) : Except Fault CompiledField := do
  let accept := f.option "accept"
  let pattern ← mediaPattern accept
  let accepted ← if accept.isTrue then accept.elements else pure []
  return ⟨blobSchema pattern (f.option? "maxSize"), .blob accepted (f.option "maxSize")⟩

/-- A union field: an object of one of the types that it refers to. -/
def compileUnion (f : Field) (nsid : String) : Except Fault CompiledField := do
  let targets ← (← f.elements "refs").mapM (readReference nsid)
  return ⟨.union targets, .union targets⟩

/-- The field of a known type other than an array; nothing if the type is not known. -/
def compileScalar? (f : Field) (nsid type : String) : Option (Except Fault CompiledField) :=
  match type with
  | "string" => some f.compileString
  | "boolean" => some do
    return ⟨f.addDefault ((← f.constSchema?).getD .boolean), .boolean⟩
  | "integer" => some do
    return ⟨f.addDefault ((← f.constSchema?).getD (.integer (f.bounds "minimum" "maximum"))),
      .integer⟩
  | "blob" => some f.compileBlob
  | "bytes" => some (.ok ⟨.bytes (f.bounds "minLength" "maxLength"), .bytes⟩)
  | "cid-link" => some (.ok ⟨linkSchema, .cidLink⟩)
  | "ref" => some do
    let target ← readReference nsid (f.option "ref")
    return ⟨.ref target, .ref target⟩
  | "union" => some (f.compileUnion nsid)
  | "unknown" => some (.ok ⟨.any, .unknown⟩)
  | _ => none

/-- A field of a type that is not known. -/
def compileUnrecognized (type : Value) (nsid : String) (strict : Bool) : Traced CompiledField :=
  if strict then .fault (.compile ⟨some nsid, .unrecognizedField type, none⟩)
  else do
    Traced.report (.unrecognizedType nsid type)
    return ⟨.noop, .any⟩

/-- The array of a compiled item. -/
def compileArray (options : Entries Value) (item : CompiledField) : CompiledField :=
  let f : Field := { type := .str "array", options }
  ⟨.array item.schema (f.bounds "minLength" "maxLength"), .array item.type⟩

/-- Compiles a field of the document `nsid`. -/
def compile (nsid : String) (strict : Bool) : Field → Traced CompiledField
  | ⟨.str "array", _, none, _⟩ => .fault (.compile ⟨some nsid, .arrayWithoutItems, none⟩)
  | ⟨.str "array", options, some items, _⟩ => do
    return compileArray options (← items.compile nsid strict)
  | f@⟨.str type, _, _, _⟩ =>
    match f.compileScalar? nsid type with
    | some result => liftM result
    | none => compileUnrecognized (.str type) nsid strict
  | ⟨type, _, _, _⟩ =>
    if type.isKey then compileUnrecognized type nsid strict else .fault .wrongType

end Field

end Lexicon
