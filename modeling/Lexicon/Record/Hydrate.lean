import Lexicon.Registry.Basic

/-!
# Records from checked values

A checked object becomes a record where its type refers to a definition that has records. A value
of a union becomes one if it names its type.
-/

namespace Lexicon

/-- The arguments for a record from the parts of a checked value: for each slot whose key is
present, the part as the type of the property asks for it. `part` makes a part of it. -/
def RecordType.argumentsFrom (t : RecordType) (type : DefinitionType) (value : Value)
    (part : String → Option FieldType → Action Value) : Action (Entries Value) := do
  let found ← t.slots.mapM fun slot => do
    if ← Action.lift (Value.isElement (.str slot.key) value) then
      let _ ← Action.lift (value.member slot.key)
      let v ← part slot.key ((type.property? slot.key).map (·.type))
      return some (slot.attr, v)
    else return none
  return found.filterMap id

/-- A record with the given arguments. -/
def RecordType.record (t : RecordType) (id : ClassId) (arguments : Entries Value) :
    Except Fault Value := do
  return .record (t.classOf id) (← t.fill arguments)

/-- What the type of a value refers to: the target of a reference, or the target of a union that the
value names as its type. -/
def FieldType.target? (t : FieldType) (entries : Entries Value) : Option Reference :=
  match t with
  | .ref target => some target
  | .union targets =>
    match entries.find? Naming.typeKey with
    | some (.str s) =>
      match Reference.read s none with
      | .ok target => if targets.contains target then some target else none
      | .error _ => none
    | _ => none
  | _ => none

mutual

/-- A checked value with records in place of objects, as its type asks for it. -/
def Value.hydrate (env : Surroundings) : Value → FieldType → Action Value
  | .list items, type =>
    match type.core with
    | .array itemType => return .list (← Value.hydrateItems env items itemType)
    | _ => return .list items
  | .object entries, type =>
    match type.core.target? entries with
    | none => return .object entries
    | some target => do
      let bundle ← Registry.bundle env target.nsid
      let definition ← Action.lift (bundle.definition target.fragment)
      match bundle.binding? target.fragment with
      | none => return .object entries
      | some binding =>
        let parts := Value.hydrators env entries
        let arguments ← binding.recordType.argumentsFrom definition.type (.object entries)
          fun key partType =>
            match parts.find? key, partType with
            | some make, some type => make type
            | _, _ => return Entries.getValue entries key
        Action.lift <|
          binding.recordType.record ⟨bundle.id, target.fragment, binding.count⟩ arguments
  | v, _ => return v

/-- Checked items with records in place of objects. -/
def Value.hydrateItems (env : Surroundings) : List Value → FieldType → Action (List Value)
  | [], _ => return []
  | x :: xs, type => do
    let y ← Value.hydrate env x type
    return y :: (← Value.hydrateItems env xs type)

/-- What makes each value of the entries a value with records. -/
def Value.hydrators (env : Surroundings) :
    List (String × Value) → Entries (FieldType → Action Value)
  | [] => []
  | (k, x) :: rest => (k, Value.hydrate env x) :: Value.hydrators env rest

end

namespace RecordType

/-- The record that a checked value makes. -/
def ofChecked (env : Surroundings) (t : RecordType) (id : ClassId) (type : DefinitionType)
    (value : Value) : Action Value := do
  let arguments ← t.argumentsFrom type value fun key partType => do
    let part ← Action.lift (value.member key)
    match partType with
    | some type => part.hydrate env type
    | none => return part
  Action.lift (t.record id arguments)

/-- Checks a value by the definition of a record type, and makes a record of it. -/
def ofValue (env : Surroundings) (t : RecordType) (id : ClassId) (v : Value) : Action Value := do
  let definition ← Registry.definition env ⟨t.nsid, t.key⟩
  let checked ← Registry.check env definition.schema v
  ofChecked env t id definition.type checked

end RecordType

namespace Bundle

/-- What the class of a key in this bundle is known by. -/
def classId (b : Bundle) (key : String) (binding : Binding) : ClassId :=
  ⟨b.id, key, binding.count⟩

/-- Checks a value by a definition of this bundle. -/
def verdict (env : Surroundings) (b : Bundle) (key : String) (v : Value) :
    Action Schema.Verdict := do
  let definition ← Action.lift (b.definition key)
  Registry.verdict env definition.schema v

/-- Checks a value by the class of a key of this bundle and makes a record of it. -/
def readRecord (env : Surroundings) (b : Bundle) (key : String) (v : Value) : Action Value := do
  let _ ← Action.lift (b.definition key)
  match b.binding? key with
  | some binding => binding.recordType.ofValue env (b.classId key binding) v
  | none => throw .wrongType

/-- Checks a value by a definition of this bundle, and makes a record of it if the definition has
records. -/
def read (env : Surroundings) (b : Bundle) (key : String) (v : Value) : Action Value := do
  let definition ← Action.lift (b.definition key)
  if (b.binding? key).isSome then readRecord env b key v
  else Registry.check env definition.schema v

/-- The registry in which values are looked up when records of a key are read. -/
def readingRegistry (b : Bundle) (key : String) : Nat :=
  match b.binding? key with
  | some binding => binding.registry
  | none => b.registry

end Bundle

end Lexicon
