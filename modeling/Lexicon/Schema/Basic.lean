import Lexicon.Format
import Lexicon.MediaPattern

/-!
# Schemas

A compiled definition is a tree of nodes that accept or reject values. A field of an object may be
required, may have a default that stands in for an absent value, and may allow null; these are
wrappers around the schema of its value. References are names only: what they lead to is looked up
when a value is checked, so definitions may refer to each other in any order and in circles.
-/

namespace Lexicon

/-- Inclusive bounds of a quantity, either of which may be absent. -/
structure Bounds where
  lower : Option Value := none
  upper : Option Value := none
  deriving Repr, Inhabited

/-- What is asked of a text. -/
structure TextRules where
  format : Option Format := none
  pattern : Option MediaPattern := none
  bytes : Bounds := {}
  graphemes : Bounds := {}
  deriving Repr, Inhabited

/-- A node of a compiled definition. -/
inductive Schema
  /-- Accepts any value. -/
  | any
  /-- Stands for a type that is not known, and accepts any value. -/
  | noop
  | boolean
  | integer (bounds : Bounds)
  | string (rules : TextRules)
  /-- Accepts a single value. -/
  | literal (value : Value)
  /-- Accepts the listed values. -/
  | enum (values : List Value)
  | array (items : Schema) (bounds : Bounds)
  /-- An object with any keys. -/
  | map (values : Schema) (keys : Option Schema)
  /-- An object with declared fields; `extra` checks the other keys, and `closed` forbids them. -/
  | object (fields : List (String × Schema)) (extra : Option Schema) (closed : Bool)
  /-- Marks a field that must be present. -/
  | required (inner : Schema)
  /-- Accepts null as well. -/
  | nullable (inner : Schema)
  /-- Supplies a value for a field that is absent. -/
  | withDefault (inner : Schema) (value : Value)
  /-- Accepts what one of the alternatives accepts. -/
  | anyOf (alternatives : List Schema) (description : String)
  | bytes (bounds : Bounds)
  | ref (target : Reference)
  /-- Accepts an object that one of the targets accepts; any object if there are none. -/
  | union (targets : List Reference)
  /-- An object whose form depends on the value under a key. -/
  | tagged (tag : String) (variants : List (String × Schema)) (fallback : Option Schema)
  deriving Repr, Inhabited

namespace Schema

/-- An object without rules for undeclared keys. -/
def fields (fs : List (String × Schema)) : Schema :=
  .object fs none false

/-- Any text. -/
def text : Schema :=
  .string {}

/-- The value that stands in for an absent field. -/
def default? : Schema → Option Value
  | .withDefault _ value => some value
  | .required inner | .nullable inner => inner.default?
  | _ => none

/-- Whether a field with this schema must be present. -/
def isRequired : Schema → Bool
  | .required _ => true
  | .nullable inner | .withDefault inner _ => inner.isRequired
  | _ => false

/-- The name of a kind of node. -/
def nodeName : Schema → String
  | .any => "AnySchema"
  | .noop => "NoopSchema"
  | .boolean => "BooleanSchema"
  | .integer _ => "IntegerSchema"
  | .string _ => "StringSchema"
  | .literal _ => "LiteralSchema"
  | .enum _ => "EnumSchema"
  | .array _ _ => "ArraySchema"
  | .map _ _ => "MapSchema"
  | .object _ _ _ => "ObjectSchema"
  | .required _ => "Required"
  | .nullable _ => "Nullable"
  | .withDefault _ _ => "WithDefault"
  | .anyOf _ _ => "AnyOf"
  | .bytes _ => "BytesSchema"
  | .ref _ => "RefSchema"
  | .union _ => "UnionSchema"
  | .tagged _ _ _ => "TaggedSchema"

/-- The text of a node: its kind, and what a reader needs to tell it from its neighbours. -/
def describe : Schema → String
  | .literal value => "LiteralSchema(" ++ value.literal ++ ")"
  | .object fields _ _ => "ObjectSchema(" ++ (Value.list (fields.map (.str ·.1))).literal ++ ")"
  | .required inner => "Required(" ++ inner.describe ++ ")"
  | .nullable inner => "Nullable(" ++ inner.describe ++ ")"
  | .withDefault inner _ => "WithDefault(" ++ inner.describe ++ ")"
  | .ref target => "RefSchema(" ++ Text.quoted target.text ++ ")"
  | s => s.nodeName ++ "()"

end Schema

end Lexicon
