import Lexicon.Text.Blank
import Lexicon.Text.Split

/-!
# Patterns of media types

Which media types a field takes: any `type/subtype`, or those that one of a list of globs matches.
In a glob a star stands for one or more characters other than a newline, and every other character
for itself. The text of a pattern is a regular expression with the same meaning.
-/

namespace Lexicon

/-- Which media types are taken. -/
inductive MediaPattern
  | any
  | globs (globs : List String)
  deriving DecidableEq, Repr, Inhabited

namespace MediaPattern

/-- Whether a character has a meaning of its own in a regular expression. -/
def isSpecial (c : Char) : Bool :=
  "\t\n\x0b\x0c\r #$&()*+-.?[\\]^\x7b|\x7d~".toList.contains c

/-- The regular expression of one glob. -/
def globText (glob : List Char) : List Char :=
  glob.flatMap fun c =>
    if c = '*' then ['.', '+'] else if isSpecial c then ['\\', c] else [c]

/-- The regular expression of a pattern. -/
def text : MediaPattern → String
  | .any => "[^/\\s]+/[^/\\s]+"
  | .globs gs =>
    String.ofList (['^', '(', '?', ':'] ++
      Text.joinWith ['|'] (gs.map fun g => globText g.toList) ++ [')', '$'])

/-- Whether a glob matches a whole text. -/
def globMatches : List Char → List Char → Bool
  | [], [] => true
  | [], _ :: _ => false
  | '*' :: _, [] => false
  | '*' :: glob, c :: cs => c != '\n' && (globMatches glob cs || globMatches ('*' :: glob) cs)
  | g :: glob, c :: cs => g == c && globMatches glob cs
  | _ :: _, [] => false
termination_by glob cs => glob.length + cs.length

/-- Whether a text is two parts without slashes and blanks, joined by a slash. -/
def isMediaType (cs : List Char) : Bool :=
  match Text.splitOn '/' cs with
  | [a, b] => !a.isEmpty && !b.isEmpty && !a.any Text.isBlank && !b.any Text.isBlank
  | _ => false

/-- Whether a pattern takes a text. A list without globs takes the empty text alone. -/
def accepts : MediaPattern → String → Bool
  | .any, s => isMediaType s.toList
  | .globs [], s => s.isEmpty
  | .globs gs, s => gs.any fun g => globMatches g.toList s.toList

end MediaPattern

end Lexicon
