import Lexicon.Text.Casing
import Lexicon.Text.Digit
import Lexicon.Text.Split
import Lexicon.Text.WordChar

/-!
# Names in generated code

The attribute that a property becomes, the class that a definition becomes, and the constant that a
token becomes. A property in camel case becomes an attribute in snake case; a name that the
generated language reserves gets an underscore at its end.
-/

namespace Lexicon.Naming

/-- The property that holds the type of a record. -/
def typeKey : String := "$type"

/-- The words that no attribute may be called, in lower case. -/
def reservedWords : List String :=
  ["and", "as", "assert", "async", "await", "break", "class", "continue", "def", "del", "elif",
    "else", "except", "finally", "for", "from", "global", "if", "import", "in", "is", "lambda",
    "nonlocal", "not", "or", "pass", "raise", "return", "try", "while", "with", "yield", "_",
    "case", "match"]

/-- Whether a character is a small letter or a digit of ASCII. -/
def isLowerOrDigit (c : Char) : Bool :=
  c.isLower || c.isDigit

/-- Whether a word begins between two characters, given what follows the second one: at a capital
after a small letter or a digit, and at a capital before a small letter after a capital. -/
def isWordStart (before c : Char) (rest : List Char) : Bool :=
  c.isUpper && (isLowerOrDigit before || (before.isUpper && rest.head?.any Char.isLower))

/-- Marks the beginnings of words after the character `before`. -/
def markWordsAfter (before : Char) : List Char → List Char
  | [] => []
  | c :: rest =>
    if isWordStart before c rest then '_' :: c :: markWordsAfter c rest
    else c :: markWordsAfter c rest

/-- A text in camel case with its words marked by underscores. -/
def markWords : List Char → List Char
  | [] => []
  | c :: rest => c :: markWordsAfter c rest

/-- Puts an underscore before a leading digit. -/
def guardDigit (cs : List Char) : List Char :=
  if cs.head?.any Text.isDigitForm then '_' :: cs else cs

/-- Puts an underscore after a reserved word. -/
def guardWord (s : String) : String :=
  if reservedWords.contains s then s ++ "_" else s

/-- The attribute of a property. -/
def attributeName (key : String) : String :=
  if key = typeKey then "type_"
  else
    let words := Text.lower (markWords key.toList)
    guardWord <| String.ofList <| guardDigit <|
      words.map fun c => if Text.isWordChar c then c else '_'

/-- The parts of a text that consist of letters and digits of ASCII. -/
def asciiWords : List Char → List (List Char)
  | [] => [[]]
  | c :: rest =>
    if c.isAlphanum then
      match asciiWords rest with
      | [] => [[c]]
      | word :: words => (c :: word) :: words
    else [] :: asciiWords rest

/-- A word with a capital at its beginning. -/
def capitalize : List Char → List Char
  | [] => []
  | c :: rest => c.toUpper :: rest

/-- The class of a definition. -/
def className (name : String) : String :=
  let joined := (asciiWords name.toList).flatMap capitalize
  String.ofList <|
    if joined.head?.all Char.isDigit then ['D', 'e', 'f'] ++ joined else joined

/-- Marks each capital that follows a small letter or a digit. -/
def markCapitalsAfter (before : Char) : List Char → List Char
  | [] => []
  | c :: rest =>
    if c.isUpper && isLowerOrDigit before then '_' :: c :: markCapitalsAfter c rest
    else c :: markCapitalsAfter c rest

/-- A text with an underscore before each capital that follows a small letter or a digit. -/
def markCapitals : List Char → List Char
  | [] => []
  | c :: rest => c :: markCapitalsAfter c rest

/-- The constant of a token. -/
def constantName (key : String) : String :=
  String.ofList <| (Text.upper (markCapitals key.toList)).map fun c => if c = '-' then '_' else c

end Lexicon.Naming
