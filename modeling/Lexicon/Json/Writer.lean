import Lexicon.Decimal.Shortest
import Lexicon.Text.Quoted
import Lexicon.Value.Basic

/-!
# Writing JSON

A layout says what stands between the parts, whether characters beyond ASCII are escaped, how
nested lines are indented, and whether keys are sorted.
-/

namespace Lexicon.Json

/-- How JSON text is laid out. -/
structure Layout where
  /-- What follows an item, a line break apart. -/
  itemEnd : String
  /-- What stands between a key and its value. -/
  keyEnd : String
  /-- Whether characters outside the printable ASCII ones are escaped. -/
  asciiOnly : Bool
  /-- What each line is indented by per level, if items have lines of their own. -/
  indent : Option String
  /-- Whether entries are sorted by key. -/
  sortKeys : Bool
  deriving Repr

/-- No blanks, and characters beyond ASCII as they are. -/
def Layout.compact : Layout :=
  ⟨",", ":", false, none, false⟩

/-- A blank after each comma and colon, and ASCII alone. -/
def Layout.spaced : Layout :=
  ⟨", ", ": ", true, none, false⟩

/-- Items on lines of their own. -/
def Layout.indented (indent : String) : Layout :=
  ⟨",", ": ", true, some indent, false⟩

/-- Doubles in JSON. -/
def floatStyle : Decimal.Style :=
  ⟨-4, 16, "NaN", "Infinity"⟩

/-- A character by the number of one UTF-16 unit. -/
def unitEscape (n : Nat) : List Char :=
  '\\' :: 'u' :: Text.Quoted.hexDigits 4 n

/-- A character within quotes. -/
def escapeChar (asciiOnly : Bool) (c : Char) : List Char :=
  if c == '"' || c == '\\' then ['\\', c]
  else if c == '\n' then ['\\', 'n']
  else if c == '\r' then ['\\', 'r']
  else if c == '\t' then ['\\', 't']
  else if c == '\x08' then ['\\', 'b']
  else if c == '\x0c' then ['\\', 'f']
  else if c.toNat < 0x20 then unitEscape c.toNat
  else if c.toNat < 0x7f || !asciiOnly then [c]
  else if c.toNat < 0x10000 then unitEscape c.toNat
  else
    unitEscape (0xd800 + (c.toNat - 0x10000) / 0x400) ++
      unitEscape (0xdc00 + (c.toNat - 0x10000) % 0x400)

/-- A text between quotes. -/
def quote (asciiOnly : Bool) (s : String) : String :=
  String.ofList ('"' :: s.toList.flatMap (escapeChar asciiOnly) ++ ['"'])

/-- The line break and indentation at a level, if the layout has them. -/
def Layout.newLine (l : Layout) (level : Nat) : String :=
  match l.indent with
  | some s => "\n" ++ String.join (List.replicate level s)
  | none => ""

/-- Parts between brackets, each on its line where the layout has lines. -/
def Layout.bracket (l : Layout) (level : Nat) (first last : String) (parts : List String) :
    String :=
  if parts.isEmpty then first ++ last
  else
    first ++ l.newLine (level + 1) ++ (l.itemEnd ++ l.newLine (level + 1)).intercalate parts ++
      l.newLine level ++ last

/-- Parts with their keys, in the order that the layout asks for. -/
def Layout.arrange (l : Layout) (parts : List (String × String)) : List String :=
  let ordered := if l.sortKeys then parts.mergeSort (fun a b => a.1 ≤ b.1) else parts
  ordered.map fun p => quote l.asciiOnly p.1 ++ l.keyEnd ++ p.2

mutual

/-- The text of a value at a level of nesting. Tuples are written as arrays; what JSON has no form
for is written as null. -/
def Layout.writeAt (l : Layout) (level : Nat) : Value → String
  | .null | .bytes _ | .record _ _ => "null"
  | .bool b => if b then "true" else "false"
  | .int n => toString n
  | .float x => floatStyle.render x
  | .str s => quote l.asciiOnly s
  | .list items | .tuple items => l.bracket level "[" "]" (l.writeItems (level + 1) items)
  | .object entries =>
    l.bracket level "\x7b" "\x7d" (l.arrange (l.writeEntries (level + 1) entries))

/-- The texts of the items. -/
def Layout.writeItems (l : Layout) (level : Nat) : List Value → List String
  | [] => []
  | x :: xs => l.writeAt level x :: l.writeItems level xs

/-- The keys and the texts of the values. -/
def Layout.writeEntries (l : Layout) (level : Nat) :
    List (String × Value) → List (String × String)
  | [] => []
  | (k, x) :: xs => (k, l.writeAt level x) :: l.writeEntries level xs

end

/-- The text of a value. -/
def Layout.write (l : Layout) (v : Value) : String :=
  l.writeAt 0 v

end Lexicon.Json
