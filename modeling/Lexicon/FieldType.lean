import Lexicon.Identifier.Nsid

/-!
# Types of checked values

What shape a value has that a compiled schema accepts. Generated code writes it as an annotation,
and it tells which parts of a value become records.
-/

namespace Lexicon

/-- The type of a property or an item. -/
inductive FieldType
  /-- Nothing is known of the value. -/
  | any
  | unknown
  | string (format : Value) (knownValues : List Value)
  | integer
  | boolean
  | bytes
  | blob (accept : List Value) (maxSize : Value)
  | cidLink
  | array (items : FieldType)
  | ref (target : Reference)
  | union (targets : List Reference)
  | nullable (inner : FieldType)
  deriving Repr, Inhabited

/-- A property of an object. -/
structure Property where
  name : String
  type : FieldType
  required : Bool
  description : Value
  deriving Repr, Inhabited

/-- The type of a definition. -/
inductive DefinitionType
  | object (properties : List Property)
  | token (name : String)
  | field (type : FieldType)
  deriving Repr, Inhabited

/-- The classes of a generated module by definition. -/
abbrev LocalClasses := List (Reference × String)

namespace FieldType

/-- The class of a definition. -/
def localClass? (classes : LocalClasses) (target : Reference) : Option String :=
  (classes.find? (·.1 == target)).map (·.2)

/-- A type without the outer marks that null is allowed. -/
def core : FieldType → FieldType
  | .nullable inner => inner.core
  | t => t

/-- Whether the outermost mark of a type is that null is allowed. -/
def isNullable : FieldType → Bool
  | .nullable _ => true
  | _ => false

/-- The annotation of a type. A reference is written as a class if the module has one for it. -/
def annotation (classes : LocalClasses) : FieldType → String
  | .any | .unknown => "Any"
  | .string _ _ => "str"
  | .integer => "int"
  | .boolean => "bool"
  | .bytes => "bytes"
  | .blob _ _ => "dict[str, Any]"
  | .cidLink => "dict[str, str]"
  | .array items => "list[" ++ annotation classes items ++ "]"
  | .ref target => (localClass? classes target).getD "Any"
  | .union targets =>
    match targets.mapM (localClass? classes) with
    | some (name :: names) => " | ".intercalate (name :: names)
    | _ => "Any"
  | .nullable inner =>
    let text := annotation classes inner
    if text = "Any" then text else text ++ " | None"

end FieldType

namespace DefinitionType

/-- The properties of a type; none unless it is an object. -/
def properties : DefinitionType → List Property
  | .object ps => ps
  | _ => []

/-- The first property with a given name. -/
def property? (t : DefinitionType) (name : String) : Option Property :=
  t.properties.find? (·.name == name)

end DefinitionType

end Lexicon
