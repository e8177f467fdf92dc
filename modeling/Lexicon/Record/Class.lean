import Lexicon.Naming
import Lexicon.Text.IdentifierChar
import Lexicon.Text.Normalized
import Lexicon.Value.Access

/-!
# Record types

Each object that a document defines becomes a record type: a slot for every property, and one for
the type of the record where the definition has a name of its own. A record type tells which slots
must be filled when a record is made and which are left out of its written form when they are null.
-/

namespace Lexicon

/-- A property of an object, as far as it concerns the record type. -/
structure SlotRule where
  key : String
  required : Bool := false
  nullable : Bool := false
  default : Option Value := none
  deriving Repr, Inhabited

/-- A slot: the key it is written under, the attribute it is read by, and what it holds unless
something else is given. -/
structure Slot where
  key : String
  attr : String
  default : Value
  deriving Repr, Inhabited

/-- What records of one definition have in common. -/
structure RecordType where
  name : String
  nsid : String
  key : String
  slots : List Slot
  /-- The keys that must be given when a record is made. -/
  enforced : List String
  /-- The keys that are not written when they are null. -/
  omitted : List String
  deriving Repr, Inhabited

namespace RecordType

/-- The attributes that a slot must not hide. -/
def reservedAttributes : List String :=
  ["to_record", "to_json", "_registry", "from_record", "_from_validated"]

/-- The rules of all slots: the declared properties in order and then the type of the record. -/
def arrange (rules : List SlotRule) (typeName : Option String) : List SlotRule :=
  rules.filter (·.key ≠ Naming.typeKey) ++
    match typeName with
    | some name => [{ key := Naming.typeKey, default := some (.str name) }]
    | none => []

/-- Whether a slot must be filled when a record is made. -/
def isEnforced (rule : SlotRule) : Bool :=
  rule.required && rule.key != Naming.typeKey

/-- Whether a slot is left out of the written form when it is null. -/
def isOmitted (rule : SlotRule) : Bool :=
  !rule.required && !rule.nullable && rule.key != Naming.typeKey

/-- The slot of a rule. -/
def slotOf (rule : SlotRule) : Slot :=
  ⟨rule.key, Naming.attributeName rule.key, rule.default.getD .null⟩

/-- Refuses attributes that are reserved or that two of the keys share; `seen` holds the attributes
so far with their keys. -/
def checkAttributes (nsid name : String) (seen : Entries String) : List Slot → Except Fault Unit
  | [] => .ok ()
  | slot :: rest =>
    if reservedAttributes.contains slot.attr then
      .error (.compile ⟨some nsid, .reservedAttribute slot.key slot.attr, some name⟩)
    else match seen.find? slot.attr with
      | some first =>
        .error (.compile ⟨some nsid, .sameAttribute first slot.key slot.attr, some name⟩)
      | none => checkAttributes nsid name (seen.insert slot.attr slot.key) rest

/-- Refuses a default that could be changed in place, unless the slot must be filled. -/
def checkDefault (rule : SlotRule) : Except Fault Unit :=
  let slot := slotOf rule
  if isEnforced rule || slot.default.isKey then .ok ()
  else .error (.argument (.mutableDefault slot.default.kind slot.attr))

/-- The record type of an object with the given properties. `typeName` is what the last slot holds,
if there is one. -/
def build (name nsid key : String) (rules : List SlotRule) (typeName : Option String) :
    Except Fault RecordType := do
  let ordered := arrange rules typeName
  let slots := ordered.map slotOf
  checkAttributes nsid key [] slots
  unless slots.all (Text.isIdentifier ·.attr) do
    throw .wrongType
  ordered.forM checkDefault
  unless slots.all fun slot => Text.isNormalized slot.attr.toList do
    throw .wrongType
  return {
    name, nsid, key, slots
    enforced := (ordered.filter isEnforced).map (·.key)
    omitted := (ordered.filter isOmitted).map (·.key) }

/-- The class of the records of this type that belong to a bundle. -/
def classOf (t : RecordType) (id : ClassId) : RecordClass :=
  ⟨id, t.name, t.slots.map fun s => (s.key, s.attr), t.omitted⟩

/-- The attributes of a record that is made with the given arguments: nothing but the attributes of
slots may be given, and every slot that has to be filled must be. -/
def fill (t : RecordType) (arguments : Entries Value) : Except Fault (Entries Value) :=
  if arguments.all fun a => t.slots.any (·.attr == a.1) then
    t.slots.mapM fun slot =>
      match arguments.find? slot.attr with
      | some v => .ok (slot.attr, v)
      | none =>
        if t.enforced.contains slot.key then .error .wrongType
        else .ok (slot.attr, slot.default)
  else .error .wrongType

end RecordType

end Lexicon
