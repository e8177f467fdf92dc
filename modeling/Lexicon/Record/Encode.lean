import Lexicon.Text.Base64
import Lexicon.Value.Basic

/-!
# The written form of values

Records become objects in the order of their slots, without the slots that are null and may be left
out. Bytes become objects with their base 64 text under `$bytes`, and tuples become lists.
-/

namespace Lexicon.Value

/-- Bytes as they are written. -/
def encodedBytes (b : List UInt8) : Value :=
  .object [("$bytes", .str (String.ofList (Text.Base64.encode b)))]

/-- The entries of a record that is written: the slots in order, given the written forms of the
attributes. -/
def writtenEntries (cls : RecordClass) (attributes : Entries Value) : Entries Value :=
  cls.slots.filterMap fun (key, attr) =>
    match attributes.find? attr with
    | some .null => if cls.omitted.contains key then none else some (key, .null)
    | some v => some (key, v)
    | none => none

mutual

/-- The written form of a value. -/
def encode : Value → Value
  | .bytes b => encodedBytes b
  | .list items | .tuple items => .list (encodeItems items)
  | .object entries => .object (encodeEntries entries)
  | .record cls attributes => .object (writtenEntries cls (encodeEntries attributes))
  | v => v

/-- The written forms of items. -/
def encodeItems : List Value → List Value
  | [] => []
  | x :: xs => encode x :: encodeItems xs

/-- The written forms of the values of entries. -/
def encodeEntries : List (String × Value) → List (String × Value)
  | [] => []
  | (k, x) :: rest => (k, encode x) :: encodeEntries rest

end

end Lexicon.Value
