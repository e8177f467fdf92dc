import Lexicon.Text.Split

/-!
# Record keys

The last part of an `at://` URI.
-/

namespace Lexicon.RecordKey

/-- Whether a character may stand in a record key. -/
def isKeyChar (c : Char) : Bool :=
  c.isAlphanum || c == '.' || c == '_' || c == ':' || c == '~' || c == '-'

/-- Whether a text consists of 1 to 512 such characters. -/
def isKeyText (cs : List Char) : Bool :=
  !cs.isEmpty && cs.length ≤ 512 && cs.all isKeyChar

/-- Whether a text is a record key; the two names of directories are not, and one newline may
follow. -/
def isValid (s : String) : Bool :=
  s != "." && s != ".." && isKeyText (Text.dropFinalNewline s.toList)

end Lexicon.RecordKey
