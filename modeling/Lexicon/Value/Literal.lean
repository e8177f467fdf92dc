import Lexicon.Decimal.Shortest
import Lexicon.Text.Quoted
import Lexicon.Value.Basic

/-!
# Literals

The text of a value as it stands in messages and in generated source.
-/

namespace Lexicon.Value

/-- Doubles are written with a point or an exponent, positionally from `1e-4` up to `1e16`. -/
def floatStyle : Decimal.Style :=
  ⟨-4, 16, "nan", "inf"⟩

mutual

/-- The text of a value as a literal. -/
def literal : Value → String
  | .null => "None"
  | .bool b => if b then "True" else "False"
  | .int n => toString n
  | .float x => floatStyle.render x
  | .str s => Text.quoted s
  | .bytes b => String.ofList (Text.Quoted.encodeBytes b)
  | .list items => "[" ++ literalItems items ++ "]"
  | .tuple [x] => "(" ++ literal x ++ ",)"
  | .tuple items => "(" ++ literalItems items ++ ")"
  | .object entries => "\x7b" ++ literalEntries entries ++ "\x7d"
  | .record c attributes => c.name ++ "(" ++ literalAttributes attributes ++ ")"

/-- Items with a comma and a blank between two of them. -/
def literalItems : List Value → String
  | [] => ""
  | [x] => literal x
  | x :: xs => literal x ++ ", " ++ literalItems xs

/-- Entries with a comma and a blank between two of them. -/
def literalEntries : List (String × Value) → String
  | [] => ""
  | [(k, x)] => Text.quoted k ++ ": " ++ literal x
  | (k, x) :: xs => Text.quoted k ++ ": " ++ literal x ++ ", " ++ literalEntries xs

/-- Attributes with a comma and a blank between two of them. -/
def literalAttributes : List (String × Value) → String
  | [] => ""
  | [(k, x)] => k ++ "=" ++ literal x
  | (k, x) :: xs => k ++ "=" ++ literal x ++ ", " ++ literalAttributes xs

end

/-- The text of a value within a sentence: a text as it is, anything else as a literal. -/
def display : Value → String
  | .str s => s
  | v => v.literal

end Lexicon.Value
