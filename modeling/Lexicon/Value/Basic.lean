import Lexicon.Decimal.Binary64
import Lexicon.Entries

/-!
# Values

Decoded JSON, and the values that validation and record classes add to it: raw bytes, tuples and
records. Objects keep the order of their entries. Two values are `same` when they are equal as
data: numbers of any kind compare by size, and the order of entries does not count.
-/

namespace Lexicon

/-- The bundle that a compiled definition belongs to: the one a registry holds under an
identifier, or the `number`-th of those that were compiled without being registered. -/
inductive BundleId
  | registered (registry : Nat) (nsid : String)
  | loose (number : Nat)
  deriving DecidableEq, Repr, Inhabited

/-- What tells one record class from another: the bundle and key it is bound to, and how many
classes had been bound there before. -/
structure ClassId where
  bundle : BundleId
  key : String
  binding : Nat
  deriving DecidableEq, Repr, Inhabited

/-- What a record knows of its class: the attributes in order, each with the key it is written
under, and the keys that are left out when their attribute is null. -/
structure RecordClass where
  id : ClassId
  name : String
  slots : List (String × String)
  omitted : List String
  deriving DecidableEq, Repr, Inhabited

/-- A value. -/
inductive Value
  | null
  | bool (b : Bool)
  | int (n : Int)
  | float (x : Binary64)
  | str (s : String)
  | bytes (b : List UInt8)
  | list (items : List Value)
  | tuple (items : List Value)
  | object (entries : List (String × Value))
  | record (cls : RecordClass) (attributes : List (String × Value))
  deriving Repr, Inhabited

namespace Value

/-- The name of a value's kind. -/
def kind : Value → String
  | .null => "null"
  | .bool _ => "bool"
  | .int _ => "int"
  | .float _ => "float"
  | .str _ => "str"
  | .bytes _ => "bytes"
  | .list _ => "list"
  | .tuple _ => "tuple"
  | .object _ => "dict"
  | .record c _ => c.name

/-- The exact size of a number, as numerator and denominator; truth values count as 0 and 1. -/
def number? : Value → Option (Int × Nat)
  | .bool b => some (if b then 1 else 0, 1)
  | .int n => some (n, 1)
  | .float x => some x.fraction
  | _ => none

/-- Whether the first number is smaller; nothing if one of the values is no number. -/
def below? (a b : Value) : Option Bool :=
  match a.number?, b.number? with
  | some (m, c), some (n, d) => some (m * d < n * c)
  | _, _ => none

/-- Whether a value counts as true: it is not null, false, zero or empty. -/
def isTrue : Value → Bool
  | .null => false
  | .bool b => b
  | .int n => n != 0
  | .float x => x.magnitude != 0
  | .str s => s != ""
  | .bytes b => !b.isEmpty
  | .list items | .tuple items => !items.isEmpty
  | .object entries => !entries.isEmpty
  | .record _ _ => true

/-- Whether a value has no part that could be changed in place, so that it can serve as a key. -/
def isKey : Value → Bool
  | .list _ | .object _ | .record _ _ => false
  | _ => true

/-- Whether two values are equal as numbers. Doubles are equal when their bits are, or when both are
zeros; what is undefined is taken to be equal to itself. -/
def sameNumber (a b : Value) : Bool :=
  match a, b with
  | .float x, .float y => x == y || (x.magnitude == 0 && y.magnitude == 0)
  | a, b =>
    match a.number?, b.number? with
    | some (m, c), some (n, d) => m * d == n * c
    | _, _ => false

mutual

/-- Whether two values are equal as data. -/
def same : Value → Value → Bool
  | .null, .null => true
  | .str s, .str t => s == t
  | .bytes s, .bytes t => s == t
  | .list xs, .list ys => sameItems xs ys
  | .tuple xs, .tuple ys => sameItems xs ys
  | .object xs, .object ys => xs.length == ys.length && sameEntries xs ys
  | .record c xs, .record d ys => c.id == d.id && sameAttributes c.slots xs ys
  | a, b => sameNumber a b

/-- Whether two lists are equal as data, item by item. -/
def sameItems : List Value → List Value → Bool
  | [], [] => true
  | x :: xs, y :: ys => same x y && sameItems xs ys
  | _, _ => false

/-- Whether each entry of the first list has an equal one in the second. -/
def sameEntries : List (String × Value) → List (String × Value) → Bool
  | [], _ => true
  | (k, x) :: xs, ys =>
    (match Entries.find? ys k with
      | some y => same x y
      | none => false) && sameEntries xs ys

/-- Whether two records of one class agree on the attributes that the class declares. -/
def sameAttributes (slots : List (String × String)) :
    List (String × Value) → List (String × Value) → Bool
  | [], _ => true
  | (k, x) :: xs, ys =>
    (if slots.any (·.2 == k) then
      match Entries.find? ys k with
      | some y => same x y
      | none => false
    else true) && sameAttributes slots xs ys

end

/-- Whether two values are of one kind and equal as data. -/
def identical (a b : Value) : Bool :=
  match a, b with
  | .null, .null | .bool _, .bool _ | .int _, .int _ | .float _, .float _ | .str _, .str _
  | .bytes _, .bytes _ | .list _, .list _ | .tuple _, .tuple _ | .object _, .object _
  | .record _ _, .record _ _ => same a b
  | _, _ => false

mutual

/-- How deeply a value is nested. -/
def depth : Value → Nat
  | .list items | .tuple items => depthOfItems items + 1
  | .object entries => depthOfEntries entries + 1
  | .record _ attributes => depthOfEntries attributes + 1
  | _ => 1

/-- The greatest depth of the items. -/
def depthOfItems : List Value → Nat
  | [] => 0
  | x :: xs => max (depth x) (depthOfItems xs)

/-- The greatest depth of the values of the entries. -/
def depthOfEntries : List (String × Value) → Nat
  | [] => 0
  | (_, x) :: xs => max (depth x) (depthOfEntries xs)

end

/-- No value is without depth. -/
theorem depth_pos (v : Value) : 0 < v.depth := by
  cases v <;> simp [depth]

/-- No item is deeper than the deepest. -/
theorem depth_le_depthOfItems {x : Value} {xs : List Value} (h : x ∈ xs) :
    x.depth ≤ depthOfItems xs := by
  induction xs with
  | nil => simp at h
  | cons y ys ih =>
    rcases List.mem_cons.mp h with rfl | h
    · exact Nat.le_max_left _ _
    · exact Nat.le_trans (ih h) (Nat.le_max_right _ _)

/-- No value of an entry is deeper than the deepest. -/
theorem depth_le_depthOfEntries {e : String × Value} {es : List (String × Value)} (h : e ∈ es) :
    e.2.depth ≤ depthOfEntries es := by
  induction es with
  | nil => simp at h
  | cons f rest ih =>
    rcases List.mem_cons.mp h with rfl | h
    · exact Nat.le_max_left _ _
    · exact Nat.le_trans (ih h) (Nat.le_max_right _ _)

/-- Items are less deep than their list. -/
theorem depth_lt_of_mem_items {x : Value} {items : List Value} (h : x ∈ items) :
    x.depth < (list items).depth :=
  Nat.lt_succ_of_le (depth_le_depthOfItems h)

/-- The values of an object are less deep than the object. -/
theorem depth_lt_of_mem_entries {e : String × Value} {es : Entries Value} (h : e ∈ es) :
    e.2.depth < (object es).depth :=
  Nat.lt_succ_of_le (depth_le_depthOfEntries h)

/-- What stands under a key of an object is less deep than the object. -/
theorem depth_lt_of_found {x : Value} {es : Entries Value} {key : String}
    (h : es.find? key = some x) : x.depth < (object es).depth :=
  depth_lt_of_mem_entries (Entries.mem_of_find?_eq_some h)

/-- What holds of a value if it holds of all that are less deep holds of every value. -/
@[elab_as_elim]
theorem depth_induction {motive : Value → Prop} (v : Value)
    (step : ∀ v : Value, (∀ w : Value, w.depth < v.depth → motive w) → motive v) : motive v :=
  (measure depth).wf.induction v step

/-- The text, if the value is one. -/
def str? : Value → Option String
  | .str s => some s
  | _ => none

/-- Text that may be absent, as a value. -/
def ofOption : Option Value → Value
  | some v => v
  | none => .null

/-- Text that may be absent, as a value. -/
def ofText? (s : Option String) : Value :=
  ofOption (s.map .str)

end Value

end Lexicon
