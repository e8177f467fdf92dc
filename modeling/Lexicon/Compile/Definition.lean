import Lexicon.Compile.Field
import Lexicon.Record.Class

/-!
# Compiling definitions

Most definitions compile to one schema. A call compiles to several: its parameters, its bodies, and
one for the call itself, whose fields refer to the others.
-/

namespace Lexicon

/-- A compiled definition, or a compiled part of a call. -/
structure CompiledDefinition where
  nsid : String
  key : String
  schema : Schema
  type : DefinitionType
  recordType : Option RecordType := none
  description : Value := .null
  deriving Repr, Inhabited

/-- The name that a compiled definition has everywhere. -/
def CompiledDefinition.canonicalName (c : CompiledDefinition) : String :=
  Reference.text ⟨c.nsid, c.key⟩

namespace Definition

/-- The first of two values unless it counts as false. -/
def orElse (a b : Value) : Value :=
  if a.isTrue then a else b

/-- Refuses a name that is not among the properties. -/
def checkDeclared (nsid key group : String) (properties : Entries Field) (name : Value) :
    Except Fault Unit :=
  let declared := match name with
    | .str s => properties.has s
    | _ => false
  if declared then .ok ()
  else if name.isKey then .error (.compile ⟨some nsid, .undeclared group name, some key⟩)
  else .error .wrongType

/-- A property that is compiled: the schema and the type of its values, and the rule of its slot. -/
structure CompiledProperty where
  schema : Schema
  property : Property
  rule : SlotRule
  deriving Repr, Inhabited

/-- Puts the marks of a property around its schema and its type. -/
def CompiledProperty.of (name : String) (field : Field) (compiled : CompiledField)
    (required nullable : Bool) : CompiledProperty :=
  let schema := if nullable then Schema.nullable compiled.schema else compiled.schema
  let type := if nullable then FieldType.nullable compiled.type else compiled.type
  { schema := if required then .required schema else schema
    property := ⟨name, type, required, field.description⟩
    rule := ⟨name, required, nullable, field.options.find? "default"⟩ }

/-- Compiles one property of an object. The type of a record must always be present. -/
def compileProperty (nsid : String) (strict : Bool) (body : ObjectBody) (name : String)
    (field : Field) : Traced CompiledProperty := do
  let compiled ← field.compile nsid strict
  let required := body.required.any (Value.same (.str name)) || name == Naming.typeKey
  let nullable := body.nullable.any (Value.same (.str name))
  return .of name field compiled required nullable

/-- Compiles an object. `typeName` is what its records hold as their type, and `brand` the property
that fixes it. -/
def compileObject (nsid key className : String) (strict : Bool) (body : ObjectBody)
    (typeName : Option String) (brand : Entries Field) (description : Value) :
    Traced CompiledDefinition := do
  let description := orElse description body.description
  let properties := body.properties.merge brand
  body.required.forM fun name => liftM (checkDeclared nsid key "required" properties name)
  body.nullable.forM fun name => liftM (checkDeclared nsid key "nullable" properties name)
  let compiled ← properties.mapM fun e => compileProperty nsid strict body e.1 e.2
  let recordType ← liftM <| RecordType.build className nsid key (compiled.map (·.rule)) typeName
  return {
    nsid, key
    schema := .fields (compiled.map fun c => (c.property.name, c.schema))
    type := .object (compiled.map (·.property))
    recordType := some recordType
    description }

/-- The property that fixes the type of a record. -/
def brandField (typeName : String) : Field where
  type := .str "string"
  options := [("const", .str typeName), ("default", .str typeName)]

/-- Compiles a part of a call. -/
def compilePart (nsid key : String) (strict : Bool) (schema : BodySchema) (description : Value) :
    Traced CompiledDefinition :=
  match schema with
  | .object body => compileObject nsid key (Naming.className key) strict body none [] .null
  | .field f => do
    let compiled ← f.compile nsid strict
    return { nsid, key, schema := compiled.schema, type := .field compiled.type, description }

/-- What all kinds of calls have. -/
def call? : Definition → Option Call
  | .query call _ | .procedure call _ _ | .subscription call _ => some call
  | _ => none

/-- The bodies of a call by the keys of its parts. -/
def bodies : Definition → List (String × Option Body)
  | .query _ output => [("output", output)]
  | .procedure _ input output => [("input", input), ("output", output)]
  | .subscription _ message => [("message", message)]
  | _ => []

/-- The parts of a call by their keys, each with its schema and description. -/
def parts (d : Definition) (call : Call) : List (String × BodySchema × Value) :=
  let parameters := call.parameters.map fun p =>
    ("params",
      BodySchema.object
        { properties := p.properties, required := p.required, description := p.description },
      p.description)
  parameters.toList ++ d.bodies.filterMap fun b =>
    b.2.bind fun body => body.schema.map fun s => (b.1, s, body.description)

/-- A field of a call that refers to one of its parts. -/
def partField (nsid key : String) (required : Bool) : CompiledProperty :=
  .of key { type := .null } ⟨.ref ⟨nsid, key⟩, .ref ⟨nsid, key⟩⟩ required false

/-- The field of a procedure whose input has no schema. -/
def rawInputField : CompiledProperty :=
  .of "raw_input" { type := .null } ⟨.any, .unknown⟩ false false

/-- Whether a call takes an input. -/
def takesInput : Definition → Bool
  | .procedure _ _ _ => true
  | _ => false

/-- The fields of a call with the given parts. -/
def callFields (nsid : String) (d : Definition) (call : Call) (partKeys : List String) :
    List CompiledProperty :=
  let parameters :=
    if partKeys.contains "params" then
      [partField nsid "params" (call.parameters.any (!·.required.isEmpty))]
    else []
  let input :=
    if partKeys.contains "input" then [partField nsid "input" true]
    else if d.takesInput then [rawInputField]
    else []
  parameters ++ input

/-- Compiles a call: the call itself and then its parts. -/
def compileCall (nsid key className : String) (strict : Bool) (d : Definition) (call : Call) :
    Traced (List CompiledDefinition) := do
  let parts := d.parts call
  let compiled ← parts.mapM fun p => compilePart nsid p.1 strict p.2.1 p.2.2
  let fields := callFields nsid d call (parts.map (·.1))
  let recordType ← liftM <| RecordType.build className nsid key (fields.map (·.rule)) none
  let main : CompiledDefinition := {
    nsid, key
    schema := .fields (fields.map fun c => (c.property.name, c.schema))
    type := .object (fields.map (·.property))
    recordType := some recordType
    description := call.description }
  return main :: compiled

/-- Compiles a definition of the document `nsid` to schemas, the one of its own name first. -/
def compile (nsid key className : String) (strict : Bool) (d : Definition) :
    Traced (List CompiledDefinition) :=
  let typeName := Reference.text ⟨nsid, key⟩
  match d with
  | .record body _ description => do
    let brand := [(Naming.typeKey, brandField typeName)]
    return [← compileObject nsid key className strict body (some typeName) brand description]
  | .object body => do
    return [← compileObject nsid key className strict body (some typeName) [] .null]
  | .query call _ | .procedure call _ _ | .subscription call _ =>
    compileCall nsid key className strict d call
  | .token description =>
    return [{ nsid, key, schema := .text, type := .token typeName, description }]
  | .field f => do
    let compiled ← f.compile nsid strict
    return [{
      nsid, key, schema := compiled.schema, type := .field compiled.type
      description := f.description }]

end Definition

end Lexicon
