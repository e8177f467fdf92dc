import Lexicon.Text.Blank
import Lexicon.Value.Literal

/-!
# Layout of literals

A literal is written on one line if it fits into the width. Otherwise lists and objects have their
parts on lines of their own, and long texts are cut after white space into pieces that stand below
each other.
-/

namespace Lexicon.Layout

/-- The greatest length of a line. -/
def width : Nat := 88

/-- A line break and blanks. -/
def newLine (indent : Nat) : String :=
  String.ofList ('\n' :: List.replicate indent ' ')

/-- The number of characters of a text as a literal. -/
def quotedLength (cs : List Char) : Nat :=
  (Text.quoted (String.ofList cs)).length

/-- The words of a line, each with the white space after it. `inGap` says whether the white space
after the current word has begun. -/
def words (inGap : Bool) : List Char → List (List Char)
  | [] => [[]]
  | c :: rest =>
    if inGap && !Text.isBlank c then
      match words false rest with
      | [] => [[], [c]]
      | word :: more => [] :: (c :: word) :: more
    else
      match words (Text.isBlank c) rest with
      | [] => [[c]]
      | word :: more => (c :: word) :: more

/-- Joins words to pieces that fit into a width; the piece with the last word must fit into another
one. `current` is the piece so far. -/
def fill (width lastWidth : Int) (current : List Char) : List (List Char) → List (List Char)
  | [] => if current.isEmpty then [] else [current]
  | word :: rest =>
    let limit := if rest.isEmpty then lastWidth else width
    let candidate := current ++ word
    if (quotedLength candidate : Int) > limit then
      if current.isEmpty then fill width lastWidth word rest
      else current :: fill width lastWidth word rest
    else fill width lastWidth candidate rest

/-- The pieces of the lines of a text. The last line leaves room for what follows the text. -/
def pieces (width room : Int) : List (List Char) → List (List Char)
  | [] => []
  | line :: rest =>
    let lastWidth := if rest.isEmpty then width - room else width
    if (quotedLength line : Int) ≤ lastWidth then line :: pieces width room rest
    else fill width lastWidth [] (words false line) ++ pieces width room rest

/-- The text of a long text: its pieces below each other. -/
def layOutText (indent room : Nat) (s : String) : String :=
  let available : Int := (width : Int) - indent
  match pieces available room (Text.linesWithBreaks s.toList) with
  | [] | [_] => Text.quoted s
  | ps => (newLine indent).intercalate (ps.map fun p => Text.quoted (String.ofList p))

/-- Parts between brackets on lines of their own. -/
def bracket (first last : String) (indent : Nat) (parts : List String) : String :=
  first ++ ("," ++ newLine (indent + 1)).intercalate parts ++ last

mutual

/-- The text of a value that begins after `indent` characters and is followed by `room`. -/
def layOut (indent room : Nat) (v : Value) : String :=
  let whole := v.literal
  if whole.length + indent + room ≤ width then whole
  else match v with
    | .list (x :: xs) => bracket "[" "]" indent (layOutItems (indent + 1) (room + 1) (x :: xs))
    | .object (e :: es) =>
      bracket "\x7b" "\x7d" indent (layOutEntries (indent + 1) (room + 1) (e :: es))
    | .str s => layOutText indent room s
    | _ => whole

/-- The texts of items; `room` characters follow the last one. -/
def layOutItems (indent room : Nat) : List Value → List String
  | [] => []
  | [x] => [layOut indent room x]
  | x :: xs => layOut indent 1 x :: layOutItems indent room xs

/-- The texts of entries; `room` characters follow the last one. -/
def layOutEntries (indent room : Nat) : List (String × Value) → List String
  | [] => []
  | [(k, x)] =>
    let key := Text.quoted k
    [key ++ ": " ++ layOut (indent + key.length + 2) room x]
  | (k, x) :: rest =>
    let key := Text.quoted k
    (key ++ ": " ++ layOut (indent + key.length + 2) 1 x) :: layOutEntries indent room rest

end

end Lexicon.Layout
