import Lexicon.Entries
import Lexicon.Text.Blank

/-!
# Environment files

Lines that give values to variables: an optional `export`, a name, an equals sign and a value,
which may be quoted and then may run over several lines. A name without an equals sign has no value.
A line that does not have this form is passed over. In a value, a name between `${` and `}` stands
for a value given before or outside the file, and what follows `:-` for the value it has otherwise.
-/

namespace Lexicon.EnvironmentFile

/-- Whether a character is white space that does not end a line. -/
def isGap (c : Char) : Bool :=
  Text.isBlank c && c != '\n' && c != '\r'

/-- Whether a character ends a line. -/
def isLineEnd (c : Char) : Bool :=
  c == '\n' || c == '\r'

/-- The text after the end of its first line. -/
def dropLine (cs : List Char) : List Char :=
  match cs.dropWhile (!isLineEnd ·) with
  | [] => []
  | _ :: rest => rest

/-- What was read, and the text after it; or the text at the place of an error. -/
abbrev Step (α : Type) := Except (List Char) (α × List Char)

/-- The text up to the quote that ends it. A quote after a backslash does not end it, unless no
other quote follows. -/
def quoted? (q : Char) : List Char → Option (List Char × List Char)
  | [] => none
  | c :: rest =>
    if c = q then some ([], rest)
    else if c = '\\' ∧ rest.head? = some q then
      match quoted? q rest.tail with
      | some (value, after) => some ('\\' :: q :: value, after)
      | none => some (['\\'], rest.tail)
    else (quoted? q rest).map fun r => (c :: r.1, r.2)
termination_by cs => cs.length
decreasing_by
  · simp only [List.length_tail, List.length_cons]; omega
  · simp

/-- The character that a backslash and a letter stand for between quotes. -/
def escaped? (q c : Char) : Option Char :=
  if c = '\\' ∨ c = '\'' then some c
  else if q = '\'' then none
  else match c with
    | '"' => some '"'
    | 'a' => some '\x07'
    | 'b' => some '\x08'
    | 'f' => some '\x0c'
    | 'n' => some '\n'
    | 'r' => some '\r'
    | 't' => some '\t'
    | 'v' => some '\x0b'
    | _ => none

/-- A quoted text with its escapes replaced. -/
def unescape (q : Char) : List Char → List Char
  | [] => []
  | '\\' :: c :: rest =>
    match escaped? q c with
    | some d => d :: unescape q rest
    | none => '\\' :: unescape q (c :: rest)
  | c :: rest => c :: unescape q rest

/-- A value without quotes and without the comment after it. -/
def dropComment : List Char → List Char
  | [] => []
  | c :: rest =>
    if Text.isBlank c ∧ (rest.dropWhile Text.isBlank).head? = some '#' then []
    else c :: dropComment rest

/-- Reads a name; there is none where a comment begins. -/
def readName (cs : List Char) : Step (Option (List Char)) :=
  match cs with
  | '#' :: _ => .ok (none, cs)
  | '\'' :: rest =>
    match rest.dropWhile (· ≠ '\'') with
    | '\'' :: after =>
      let name := rest.takeWhile (· ≠ '\'')
      if name.isEmpty then .error cs else .ok (some name, after)
    | _ => .error cs
  | _ =>
    let isNameChar (c : Char) := c != '=' && c != '#' && !Text.isBlank c
    let name := cs.takeWhile isNameChar
    if name.isEmpty then .error cs else .ok (some name, cs.dropWhile isNameChar)

/-- Reads a value. -/
def readValue (cs : List Char) : Step (List Char) :=
  match cs with
  | [] => .ok ([], cs)
  | c :: rest =>
    if c = '\'' ∨ c = '"' then
      match quoted? c rest with
      | some (value, after) => .ok (unescape c value, after)
      | none => .error cs
    else if isLineEnd c then .ok ([], cs)
    else
      .ok (Text.dropFinalBlanks (dropComment (cs.takeWhile (!isLineEnd ·))),
        cs.dropWhile (!isLineEnd ·))

/-- Reads the end of a line, before which a comment may stand. -/
def readLineEnd (cs : List Char) : Step Unit :=
  let after := match cs.dropWhile isGap with
    | '#' :: rest => rest.dropWhile (!isLineEnd ·)
    | _ => cs
  match after.dropWhile isGap with
  | [] => .ok ((), [])
  | '\r' :: '\n' :: rest => .ok ((), rest)
  | c :: rest => if isLineEnd c then .ok ((), rest) else .error after

/-- The text after the word `export` and the white space that must follow it. -/
def dropExport (cs : List Char) : List Char :=
  match Text.after? "export".toList cs with
  | some (c :: rest) => if isGap c then rest.dropWhile isGap else cs
  | _ => cs

/-- Reads what one line says. -/
def readLine (cs : List Char) :
    Except (List Char) (Option (List Char × Option (List Char)) × List Char) := do
  let (name, after) ← readName (dropExport cs)
  let after := after.dropWhile isGap
  let (value, after) ← match after with
    | '=' :: rest => do
      let (value, after) ← readValue (rest.dropWhile isGap)
      pure (some value, after)
    | _ => pure (none, after)
  let (_, after) ← readLineEnd after
  return (name.map (·, value), after)

/-- Reads all lines; every line uses up characters, which bounds their number. -/
def readLines : Nat → List Char → List (List Char × Option (List Char))
  | 0, _ => []
  | fuel + 1, cs =>
    match cs.dropWhile Text.isBlank with
    | [] => []
    | cs =>
      match readLine cs with
      | .ok (some line, after) => line :: readLines fuel after
      | .ok (none, after) => readLines fuel after
      | .error place => readLines fuel (dropLine place)

/-- A piece of a value: text, or a variable and the value it has otherwise. -/
inductive Piece
  | text (cs : List Char)
  | variableRef (name : List Char) (otherwise : List Char)
  deriving Repr

/-- The variable after `${`, and the text after it. -/
def reference? (cs : List Char) : Option (Piece × List Char) :=
  let name := cs.takeWhile fun c => c != '\x7d' && c != ':'
  match cs.dropWhile fun c => c != '\x7d' && c != ':' with
  | '\x7d' :: after => some (.variableRef name [], after)
  | ':' :: '-' :: rest =>
    match rest.dropWhile (· ≠ '\x7d') with
    | '\x7d' :: after => some (.variableRef name (rest.takeWhile (· ≠ '\x7d')), after)
    | _ => none
  | _ => none

/-- The pieces of a value. -/
def pieces : Nat → List Char → List Piece
  | 0, _ => []
  | _ + 1, [] => []
  | fuel + 1, c :: rest =>
    match Text.after? ['$', '\x7b'] (c :: rest) |>.bind reference? with
    | some (piece, after) => piece :: pieces fuel after
    | none => .text [c] :: pieces fuel rest

/-- A value with the variables in it replaced. -/
def expand (outside known : Entries (Option String)) (value : List Char) : String :=
  String.ofList <| (pieces value.length value).flatMap fun
    | .text cs => cs
    | .variableRef name otherwise =>
      let name := String.ofList name
      match (known.find? name).orElse fun _ => outside.find? name with
      | some value => (value.getD "").toList
      | none => otherwise

/-- The variables of a file with their values; `outside` holds the variables of the environment. -/
def read (outside : Entries (Option String)) (contents : String) : Entries (Option String) :=
  let cs := Text.unifyLineEnds contents.toList
  (readLines (cs.length + 1) cs).foldl (fun known line =>
    known.insert (String.ofList line.1) (line.2.map (expand outside known))) []

end Lexicon.EnvironmentFile
