import Lexicon.Value.Access

/-!
# Definitions

The parsed form of the definitions of a document. What the schema of documents has not checked is
kept as a value, so that parsing fails only where a part that it takes apart has another form.
Definitions are equal when their parts are; the order of properties does not count.
-/

namespace Lexicon

/-- The type of a property, of an array item, or of a body: its name, what else is said about it,
and the type of its items if it is an array. -/
structure Field where
  type : Value
  options : Entries Value := []
  items : Option Field := none
  description : Value := .null
  deriving Repr, Inhabited

/-- An object: its properties, and which of them must be present and which may be null. -/
structure ObjectBody where
  properties : Entries Field
  required : List Value := []
  nullable : List Value := []
  description : Value := .null
  deriving Repr, Inhabited

/-- The parameters of a call. -/
structure Parameters where
  properties : Entries Field
  required : List Value := []
  description : Value := .null
  deriving Repr, Inhabited

/-- The schema of a body. -/
inductive BodySchema
  | object (body : ObjectBody)
  | field (field : Field)
  deriving Repr, Inhabited

/-- What is sent with a call or comes back. -/
structure Body where
  encoding : Value
  schema : Option BodySchema
  description : Value
  deriving Repr, Inhabited

/-- An error that a call names. -/
structure NamedError where
  name : Value
  description : Value
  deriving Repr, Inhabited

/-- What all kinds of calls have. -/
structure Call where
  parameters : Option Parameters
  errors : List NamedError
  description : Value
  deriving Repr, Inhabited

/-- A definition. -/
inductive Definition
  | record (body : ObjectBody) (key description : Value)
  | object (body : ObjectBody)
  | query (call : Call) (output : Option Body)
  | procedure (call : Call) (input output : Option Body)
  | subscription (call : Call) (message : Option Body)
  | token (description : Value)
  | field (field : Field)
  deriving Repr, Inhabited

/-- The option of a field, null if it is absent. -/
def Field.option (f : Field) (name : String) : Value :=
  f.options.getValue name

/-! ## Reading -/

mutual

/-- The field that a value describes. -/
def Field.ofValue : Value → Except Fault Field
  | .object es => do
    let type ← (Value.object es).member "type"
    let items ← Field.itemsOf es
    return {
      type
      options := es.filter fun e => e.1 ∉ ["type", "items", "description"]
      items
      description := Entries.getValue es "description" }
  | _ => .error .noAttribute

/-- The items among the entries of a field. -/
def Field.itemsOf : List (String × Value) → Except Fault (Option Field)
  | [] => .ok none
  | (k, v) :: rest =>
    if k = "items" then if v.isNull then .ok none else (Field.ofValue v).map some
    else Field.itemsOf rest

end

/-- The fields under the key `properties`. -/
def propertiesOf (es : Entries Value) : Except Fault (Entries Field) := do
  let properties ← ((Entries.find? es "properties").getD (.object [])).entries
  properties.mapM fun e => return (e.1, ← Field.ofValue e.2)

/-- The elements under a key; none if it is absent. -/
def elementsOf (es : Entries Value) (key : String) : Except Fault (List Value) :=
  ((Entries.find? es key).getD (.list [])).elements

/-- The object that a value describes. -/
def ObjectBody.ofValue (v : Value) : Except Fault ObjectBody := do
  let es ← v.entries
  return {
    properties := ← propertiesOf es
    required := ← elementsOf es "required"
    nullable := ← elementsOf es "nullable"
    description := Entries.getValue es "description" }

/-- The parameters that a value describes. -/
def Parameters.ofValue (v : Value) : Except Fault Parameters := do
  let es ← v.entries
  return {
    properties := ← propertiesOf es
    required := ← elementsOf es "required"
    description := Entries.getValue es "description" }

/-- The schema of a body that a value describes. -/
def BodySchema.ofValue (v : Value) : Except Fault BodySchema := do
  let type ← v.member "type"
  if type.same (.str "object") then return .object (← ObjectBody.ofValue v)
  else return .field (← Field.ofValue v)

/-- The body that a value describes. -/
def Body.ofValue (v : Value) : Except Fault Body := do
  let es ← v.entries
  return {
    schema := ← (Entries.getValue es "schema").present?.mapM BodySchema.ofValue
    encoding := Entries.getValue es "encoding"
    description := Entries.getValue es "description" }

/-- The error that a value describes. -/
def NamedError.ofValue (v : Value) : Except Fault NamedError := do
  let name ← v.member "name"
  let es ← v.entries
  return { name, description := Entries.getValue es "description" }

/-- What is under a key, unless it is absent or null. -/
def partOf {α : Type} (read : Value → Except Fault α) (es : Entries Value) (key : String) :
    Except Fault (Option α) :=
  (Entries.getValue es key).present?.mapM read

/-- The errors that a call names. -/
def errorsOf (es : Entries Value) : Except Fault (List NamedError) := do
  (← elementsOf es "errors").mapM NamedError.ofValue

/-- The definition that a value describes. -/
def Definition.ofValue (v : Value) : Except Fault Definition := do
  let type ← v.member "type"
  let es ← v.entries
  let description := Entries.getValue es "description"
  match type with
  | .str "record" =>
    let body ← ObjectBody.ofValue (← v.member "record")
    return .record body (Entries.getValue es "key") description
  | .str "object" => return .object (← ObjectBody.ofValue v)
  | .str "query" =>
    let parameters ← partOf Parameters.ofValue es "parameters"
    let output ← partOf Body.ofValue es "output"
    return .query ⟨parameters, ← errorsOf es, description⟩ output
  | .str "procedure" =>
    let parameters ← partOf Parameters.ofValue es "parameters"
    let input ← partOf Body.ofValue es "input"
    let output ← partOf Body.ofValue es "output"
    return .procedure ⟨parameters, ← errorsOf es, description⟩ input output
  | .str "subscription" =>
    let parameters ← partOf Parameters.ofValue es "parameters"
    let message ← partOf Body.ofValue es "message"
    return .subscription ⟨parameters, ← errorsOf es, description⟩ message
  | .str "token" => return .token description
  | _ => return .field (← Field.ofValue v)

/-! ## Equality -/

/-- Whether both are absent, or both present and equal. -/
def equalOptions {α : Type} (equal : α → α → Bool) : Option α → Option α → Bool
  | none, none => true
  | some a, some b => equal a b
  | _, _ => false

/-- Whether two fields are equal. -/
def Field.same : Field → Field → Bool
  | ⟨type, options, none, description⟩, ⟨type', options', none, description'⟩ =>
    type.same type' && (Value.object options).same (.object options') &&
      description.same description'
  | ⟨type, options, some items, description⟩, ⟨type', options', some items', description'⟩ =>
    type.same type' && (Value.object options).same (.object options') && items.same items' &&
      description.same description'
  | _, _ => false

/-- Whether two objects are equal. -/
def ObjectBody.same (a b : ObjectBody) : Bool :=
  a.properties.agree Field.same b.properties && Value.sameItems a.required b.required &&
    Value.sameItems a.nullable b.nullable && a.description.same b.description

/-- Whether two lists of parameters are equal. -/
def Parameters.same (a b : Parameters) : Bool :=
  a.properties.agree Field.same b.properties && Value.sameItems a.required b.required &&
    a.description.same b.description

/-- Whether two schemas of bodies are equal. -/
def BodySchema.same : BodySchema → BodySchema → Bool
  | .object a, .object b => a.same b
  | .field a, .field b => a.same b
  | _, _ => false

/-- Whether two bodies are equal. -/
def Body.same (a b : Body) : Bool :=
  a.encoding.same b.encoding && equalOptions BodySchema.same a.schema b.schema &&
    a.description.same b.description

/-- Whether two named errors are equal. -/
def NamedError.same (a b : NamedError) : Bool :=
  a.name.same b.name && a.description.same b.description

/-- Whether two lists of named errors are equal, one by one. -/
def NamedError.sameList : List NamedError → List NamedError → Bool
  | [], [] => true
  | a :: as, b :: bs => a.same b && sameList as bs
  | _, _ => false

/-- Whether two calls are equal. -/
def Call.same (a b : Call) : Bool :=
  equalOptions Parameters.same a.parameters b.parameters && NamedError.sameList a.errors b.errors &&
    a.description.same b.description

/-- Whether two definitions are equal. -/
def Definition.same : Definition → Definition → Bool
  | .record a key description, .record b key' description' =>
    a.same b && key.same key' && description.same description'
  | .object a, .object b => a.same b
  | .query a output, .query b output' => a.same b && equalOptions Body.same output output'
  | .procedure a input output, .procedure b input' output' =>
    a.same b && equalOptions Body.same input input' && equalOptions Body.same output output'
  | .subscription a message, .subscription b message' =>
    a.same b && equalOptions Body.same message message'
  | .token a, .token b => a.same b
  | .field a, .field b => a.same b
  | _, _ => false

end Lexicon
