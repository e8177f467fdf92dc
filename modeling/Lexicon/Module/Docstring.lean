import Lexicon.Text.Blank
import Lexicon.Text.Split

/-!
# Docstrings

A description as a literal between two threefold quotes.
-/

namespace Lexicon.Docstring

/-- Three quotes. -/
def quotes : List Char := ['"', '"', '"']

/-- Escapes the quote at the end of a text, if there is one. -/
def escapeFinalQuote : List Char → List Char
  | [] => []
  | ['"'] => ['\\', '"']
  | c :: rest => c :: escapeFinalQuote rest

/-- A description without the white space around it, in which nothing ends the literal. -/
def escape (cs : List Char) : List Char :=
  escapeFinalQuote <|
    Text.replace quotes ['\\', '"', '\\', '"', '\\', '"'] <|
      (Text.trim cs).flatMap fun c => if c = '\\' then ['\\', '\\'] else [c]

/-- A line after the first one; an empty line is not indented. -/
def indentLine (indent line : List Char) : List Char :=
  if line.isEmpty then [] else indent ++ line

/-- The literal of a description. The quotes of a literal of more than one line end on a line of
their own. -/
def render (text indent : List Char) : List Char :=
  match Text.lines (escape text) with
  | [] => indent ++ quotes ++ quotes
  | [line] => indent ++ quotes ++ line ++ quotes
  | line :: rest =>
    indent ++ quotes ++ line ++ ['\n'] ++ Text.joinWith ['\n'] (rest.map (indentLine indent)) ++
      ['\n'] ++ indent ++ quotes

end Lexicon.Docstring
