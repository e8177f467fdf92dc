import Lexicon.Fault
import Lexicon.Text.Split

/-!
# Access to parts of values

Taking values apart whose form was not checked before. A value of another kind is a fault of the
access, not of the value.
-/

namespace Lexicon.Value

/-- Whether a value is null. -/
def isNull : Value → Bool
  | .null => true
  | _ => false

/-- The value, unless it is null. -/
def present? : Value → Option Value
  | .null => none
  | v => some v

/-- The entries of an object. -/
def entries : Value → Except Fault (Entries Value)
  | .object es => .ok es
  | _ => .error .noAttribute

/-- The value under a key that must be present. -/
def member (v : Value) (key : String) : Except Fault Value :=
  match v with
  | .object es =>
    match Entries.find? es key with
    | some x => .ok x
    | none => .error .missingKey
  | _ => .error .wrongType

/-- What a value consists of when it is walked through: characters, bytes, items or keys. -/
def elements : Value → Except Fault (List Value)
  | .str s => .ok (s.toList.map fun c => .str c.toString)
  | .bytes b => .ok (b.map fun x => .int x.toNat)
  | .list items | .tuple items => .ok items
  | .object es => .ok (es.map fun e => .str e.1)
  | _ => .error .wrongType

/-- Whether one value is among the elements of another. -/
def isElement (x v : Value) : Except Fault Bool :=
  match v, x with
  | .str s, .str t => .ok (Text.afterFirst? t.toList s.toList).isSome
  | .str _, _ => .error .wrongType
  | .object es, x =>
    if x.isKey then .ok (es.any fun e => x.same (.str e.1)) else .error .wrongType
  | v, x => do return (← v.elements).any x.same

end Lexicon.Value

namespace Lexicon.Entries

/-- The value under a key; null if there is none. -/
def getValue (es : Entries Value) (key : String) : Value :=
  .ofOption (find? es key)

/-- Whether two lists have the same keys with equal values, in any order. -/
def agree {α : Type} (equal : α → α → Bool) (xs ys : Entries α) : Bool :=
  xs.length == ys.length && xs.all fun e =>
    match find? ys e.1 with
    | some y => equal e.2 y
    | none => false

end Lexicon.Entries
