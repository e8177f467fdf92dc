import Lexicon.Text.Split

/-!
# Labels

The dot-separated parts of host names and namespaced identifiers. Identifiers are written in ASCII.
One newline at the end of a text is not held against it.
-/

namespace Lexicon.Label

/-- Whether a character may stand in a label. -/
def isLabelChar (c : Char) : Bool :=
  c.isAlphanum || c == '-'

/-- Whether a text is a label: one to sixty-three letters, digits and hyphens, with no hyphen at
either end. -/
def isLabel (cs : List Char) : Bool :=
  cs.length ≤ 63 && cs.all isLabelChar && cs.head?.any Char.isAlphanum &&
    cs.getLast?.any Char.isAlphanum

/-- Whether a text is a label that starts with a letter. -/
def isLetterLabel (cs : List Char) : Bool :=
  isLabel cs && cs.head?.any Char.isAlpha

/-- Whether a text is a name: one to sixty-three letters and digits that start with a letter. -/
def isName (cs : List Char) : Bool :=
  cs.length ≤ 63 && cs.all Char.isAlphanum && cs.head?.any Char.isAlpha

/-- Whether a text is a host name: two or more labels, the last of which starts with a letter. -/
def isHost (cs : List Char) : Bool :=
  match (Text.splitOn '.' cs).reverse with
  | last :: first :: more => isLetterLabel last && (first :: more).all isLabel
  | _ => false

/-- Whether a text is a reversed host name followed by a name: three or more parts, the first a
label that starts with a letter, the last a name, and labels between. -/
def isNamespaced (cs : List Char) : Bool :=
  match Text.splitOn '.' cs with
  | first :: second :: third :: more =>
    isLetterLabel first && (second :: third :: more).dropLast.all isLabel &&
      isName ((third :: more).getLast (by simp))
  | _ => false

end Lexicon.Label
