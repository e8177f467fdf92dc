import Lexicon.Value.Basic

/-!
# Reading JSON

A text is read from left to right, and the first fault found is reported with its position. The
last of several entries with one key counts, at the place of the first. The words `NaN`,
`Infinity` and `-Infinity` are read as numbers.
-/

namespace Lexicon.Json

/-- What is wrong with a text. -/
inductive Fault
  | expectedValue
  | expectedKey
  | expectedColon
  | expectedComma
  | extraData
  | unterminatedString
  | controlCharacter
  | badEscape
  | badUnicodeEscape
  | byteOrderMark
  deriving DecidableEq, Repr

/-- The wording of a fault. -/
def Fault.message : Fault → String
  | .expectedValue => "Expecting value"
  | .expectedKey => "Expecting property name enclosed in double quotes"
  | .expectedColon => "Expecting ':' delimiter"
  | .expectedComma => "Expecting ',' delimiter"
  | .extraData => "Extra data"
  | .unterminatedString => "Unterminated string starting at"
  | .controlCharacter => "Invalid control character at"
  | .badEscape => "Invalid \\escape"
  | .badUnicodeEscape => "Invalid \\uXXXX escape"
  | .byteOrderMark => "Unexpected UTF-8 BOM (decode using utf-8-sig)"

/-- A fault and the number of characters before it. -/
structure SyntaxError where
  fault : Fault
  position : Nat
  deriving DecidableEq, Repr

/-- Line and column of a position, both counted from one. -/
def lineAndColumn (text : List Char) (position : Nat) : Nat × Nat :=
  let before := text.take position
  (before.count '\n' + 1, (before.reverse.takeWhile (· != '\n')).length + 1)

/-- The wording of an error in a given text. -/
def SyntaxError.message (e : SyntaxError) (text : List Char) : String :=
  let (line, column) := lineAndColumn text e.position
  e.fault.message ++ ": line " ++ toString line ++ " column " ++ toString column ++
    " (char " ++ toString e.position ++ ")"

/-- What is left to read, and its position. -/
structure Cursor where
  position : Nat
  rest : List Char

/-- The cursor some characters further on. -/
def Cursor.advance (c : Cursor) (n : Nat) : Cursor :=
  ⟨c.position + n, c.rest.drop n⟩

/-- Whether a character may stand between two tokens. -/
def isGap (c : Char) : Bool :=
  c == ' ' || c == '\t' || c == '\n' || c == '\r'

/-- The cursor at the next token. -/
def Cursor.skipGap (c : Cursor) : Cursor :=
  c.advance (c.rest.takeWhile isGap).length

/-- The fault at a position. -/
def fail {α : Type} (fault : Fault) (position : Nat) : Except SyntaxError α :=
  .error ⟨fault, position⟩

/-- The number a hexadecimal digit stands for. -/
def hexValue? (c : Char) : Option Nat :=
  if c.isDigit then some (c.toNat - 0x30)
  else if 'a' ≤ c && c ≤ 'f' then some (c.toNat - 0x57)
  else if 'A' ≤ c && c ≤ 'F' then some (c.toNat - 0x37)
  else none

/-- The number that four hexadecimal digits at the beginning of a text stand for. -/
def fourHex? (cs : List Char) : Option Nat :=
  match cs with
  | a :: b :: c :: d :: _ => do
    return ((← hexValue? a) * 16 + (← hexValue? b)) * 256 + (← hexValue? c) * 16 + (← hexValue? d)
  | _ => none

/-- The character that a one-letter escape stands for. -/
def simpleEscape? : Char → Option Char
  | '"' => some '"'
  | '\\' => some '\\'
  | '/' => some '/'
  | 'b' => some '\x08'
  | 'f' => some '\x0c'
  | 'n' => some '\n'
  | 'r' => some '\r'
  | 't' => some '\t'
  | _ => none

/-- The low half of a pair of escapes, where the text goes on with one and a closing quote or more
after it. -/
def lowHalf? (cs : List Char) : Option (Option Nat) :=
  match cs with
  | '\\' :: 'u' :: rest => if rest.length < 5 then none else some (fourHex? rest)
  | _ => none

/-- The characters up to the closing quote, with escapes resolved; `start` is the position of the
opening quote. The first argument bounds the number of characters left. -/
def string : Nat → Nat → Cursor → List Char → Except SyntaxError (String × Cursor)
  | 0, start, _, _ => fail .unterminatedString start
  | fuel + 1, start, cur, done =>
    match cur.rest with
    | [] => fail .unterminatedString start
    | '"' :: _ => .ok (String.ofList done.reverse, cur.advance 1)
    | '\\' :: [] => fail .unterminatedString start
    | '\\' :: 'u' :: digits =>
      if digits.length < 5 then fail .badUnicodeEscape (cur.position + 1)
      else match fourHex? digits with
        | none => fail .badUnicodeEscape (cur.position + 1)
        | some n =>
          if 0xd800 ≤ n && n < 0xdc00 then
            match lowHalf? (digits.drop 4) with
            | none => string fuel start (cur.advance 6) ('\ufffd' :: done)
            | some none => fail .badUnicodeEscape (cur.position + 7)
            | some (some m) =>
              if 0xdc00 ≤ m && m < 0xe000 then
                string fuel start (cur.advance 12)
                  (Char.ofNat (0x10000 + (n - 0xd800) * 0x400 + (m - 0xdc00)) :: done)
              else string fuel start (cur.advance 6) ('\ufffd' :: done)
          else if 0xdc00 ≤ n && n < 0xe000 then
            string fuel start (cur.advance 6) ('\ufffd' :: done)
          else string fuel start (cur.advance 6) (Char.ofNat n :: done)
    | '\\' :: c :: _ =>
      match simpleEscape? c with
      | some e => string fuel start (cur.advance 2) (e :: done)
      | none => fail .badEscape cur.position
    | c :: _ =>
      if c.toNat < 0x20 then fail .controlCharacter cur.position
      else string fuel start (cur.advance 1) (c :: done)

/-- The whole number that decimal digits stand for. -/
def digitsValue (cs : List Char) : Nat :=
  cs.foldl (fun n c => n * 10 + (c.toNat - 0x30)) 0

/-- The length of the integer part at the beginning of a text, without its sign. -/
def integerLength (cs : List Char) : Nat :=
  match cs with
  | '0' :: _ => 1
  | _ => (cs.takeWhile Char.isDigit).length

/-- The digits after a point, where the text goes on with a point and a digit. -/
def fractionDigits (cs : List Char) : List Char :=
  match cs with
  | '.' :: rest => rest.takeWhile Char.isDigit
  | _ => []

/-- The length of the exponent part at the beginning of a text and its value. -/
def exponentPart? (cs : List Char) : Option (Nat × Int) :=
  match cs with
  | e :: rest =>
    if e == 'e' || e == 'E' then
      match rest with
      | '-' :: ds =>
        let digits := ds.takeWhile Char.isDigit
        if digits.isEmpty then none else some (digits.length + 2, -(digitsValue digits : Int))
      | '+' :: ds =>
        let digits := ds.takeWhile Char.isDigit
        if digits.isEmpty then none else some (digits.length + 2, digitsValue digits)
      | ds =>
        let digits := ds.takeWhile Char.isDigit
        if digits.isEmpty then none else some (digits.length + 1, digitsValue digits)
    else none
  | [] => none

/-- A number at the cursor. -/
def number (cur : Cursor) : Except SyntaxError (Value × Cursor) :=
  let negative := cur.rest.head? == some '-'
  let unsigned := if negative then cur.rest.drop 1 else cur.rest
  let whole := integerLength unsigned
  if whole = 0 then fail .expectedValue cur.position
  else
    let signLength := if negative then 1 else 0
    let fraction := fractionDigits (unsigned.drop whole)
    let fractionLength := if fraction.isEmpty then 0 else fraction.length + 1
    let (exponentLength, exponent) :=
      (exponentPart? (unsigned.drop (whole + fractionLength))).getD (0, 0)
    let after := cur.advance (signLength + whole + fractionLength + exponentLength)
    let digits := digitsValue (unsigned.take whole ++ fraction)
    if fraction.isEmpty && exponentLength == 0 then
      .ok (.int (if negative then -(digits : Int) else digits), after)
    else
      .ok (.float (Binary64.ofDecimal negative digits (exponent - fraction.length)), after)

/-- The words that stand for values. -/
def words : List (List Char × Value) :=
  [("null".toList, .null), ("true".toList, .bool true), ("false".toList, .bool false),
    ("NaN".toList, .float .undefined), ("Infinity".toList, .float (.infinity false)),
    ("-Infinity".toList, .float (.infinity true))]

/-- A word or a number at the cursor. -/
def scalar (cur : Cursor) : Except SyntaxError (Value × Cursor) :=
  match words.find? fun w => w.1.isPrefixOf cur.rest with
  | some (word, v) => .ok (v, cur.advance word.length)
  | none => number cur

mutual

/-- A value at the cursor. -/
def value : Nat → Cursor → Except SyntaxError (Value × Cursor)
  | 0, cur => fail .expectedValue cur.position
  | fuel + 1, cur =>
    match cur.rest with
    | [] => fail .expectedValue cur.position
    | '"' :: _ => do
      let (s, after) ← string (fuel + 1) cur.position (cur.advance 1) []
      return (.str s, after)
    | '\x7b' :: _ =>
      let first := (cur.advance 1).skipGap
      if first.rest.head? == some '\x7d' then .ok (.object [], first.advance 1)
      else entries fuel first []
    | '[' :: _ =>
      let first := (cur.advance 1).skipGap
      if first.rest.head? == some ']' then .ok (.list [], first.advance 1)
      else items fuel first []
    | _ => scalar cur

/-- The items up to the closing bracket, after those already read, which are held last first. -/
def items : Nat → Cursor → List Value → Except SyntaxError (Value × Cursor)
  | 0, cur, _ => fail .expectedValue cur.position
  | fuel + 1, cur, done => do
    let (v, after) ← value fuel cur
    let next := after.skipGap
    match next.rest with
    | ']' :: _ => return (.list (v :: done).reverse, next.advance 1)
    | ',' :: _ => items fuel (next.advance 1).skipGap (v :: done)
    | _ => fail .expectedComma next.position

/-- The entries up to the closing brace, after those already read. -/
def entries : Nat → Cursor → Entries Value → Except SyntaxError (Value × Cursor)
  | 0, cur, _ => fail .expectedKey cur.position
  | fuel + 1, cur, done =>
    match cur.rest with
    | '"' :: _ => do
      let (k, afterKey) ← string (fuel + 1) cur.position (cur.advance 1) []
      let colon := afterKey.skipGap
      match colon.rest with
      | ':' :: _ =>
        let (v, after) ← value fuel (colon.advance 1).skipGap
        let next := after.skipGap
        match next.rest with
        | '\x7d' :: _ => return (.object (done.insert k v), next.advance 1)
        | ',' :: _ => entries fuel (next.advance 1).skipGap (done.insert k v)
        | _ => fail .expectedComma next.position
      | _ => fail .expectedColon colon.position
    | _ => fail .expectedKey cur.position

end

/-- The value that a whole text stands for. Each step of reading uses up a character or follows one
that did, which bounds the number of steps. -/
def readAll (text : List Char) : Except SyntaxError Value := do
  let (v, after) ← value (2 * text.length + 2) (Cursor.mk 0 text).skipGap
  let last := after.skipGap
  if last.rest.isEmpty then return v else fail .extraData last.position

/-- The value that a whole text stands for, which may not begin with a byte order mark. -/
def read (text : List Char) : Except SyntaxError Value :=
  if text.head? == some '\ufeff' then fail .byteOrderMark 0 else readAll text

end Lexicon.Json
