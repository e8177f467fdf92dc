import Lexicon.Text.Split

/-!
# Blanks and line breaks

White space counts the separators of every script and the four information separators of ASCII.
A line ends at any of the characters that Unicode treats as a mandatory break.
-/

namespace Lexicon.Text

/-- Whether a character is white space. -/
def isBlank (c : Char) : Bool :=
  let n := c.toNat
  (0x09 ≤ n && n ≤ 0x0d) || (0x1c ≤ n && n ≤ 0x20) || n == 0x85 || n == 0xa0 || n == 0x1680 ||
    (0x2000 ≤ n && n ≤ 0x200a) || n == 0x2028 || n == 0x2029 || n == 0x202f || n == 0x205f ||
    n == 0x3000

/-- Whether a character ends a line. -/
def isLineBreak (c : Char) : Bool :=
  let n := c.toNat
  (0x0a ≤ n && n ≤ 0x0d) || (0x1c ≤ n && n ≤ 0x1e) || n == 0x85 || n == 0x2028 || n == 0x2029

/-- A text without the white space at its beginning. -/
def dropBlanks (cs : List Char) : List Char :=
  cs.dropWhile isBlank

/-- A text without the characters at its end that satisfy a predicate. -/
def dropEndWhile (p : Char → Bool) : List Char → List Char
  | [] => []
  | c :: rest =>
    match dropEndWhile p rest with
    | [] => if p c then [] else [c]
    | kept => c :: kept

/-- A text without the white space at its end. -/
def dropFinalBlanks (cs : List Char) : List Char :=
  dropEndWhile isBlank cs

/-- A text without the white space at either end. -/
def trim (cs : List Char) : List Char :=
  dropFinalBlanks (dropBlanks cs)

/-- The lines of a text, each with the break that ends it. A carriage return and a line feed
together are one break, and nothing follows the last break. -/
def linesWithBreaks : List Char → List (List Char)
  | [] => []
  | c :: rest =>
    if isLineBreak c && !(c == '\r' && rest.head? == some '\n') then
      [c] :: linesWithBreaks rest
    else match linesWithBreaks rest with
      | [] => [[c]]
      | line :: lines => (c :: line) :: lines

/-- A line without the break that ends it. -/
def dropLineBreak : List Char → List Char
  | [] => []
  | ['\r', '\n'] => []
  | [c] => if isLineBreak c then [] else [c]
  | c :: rest => c :: dropLineBreak rest

/-- The lines of a text without their breaks. -/
def lines (cs : List Char) : List (List Char) :=
  (linesWithBreaks cs).map dropLineBreak

/-- A text with a line feed in place of a carriage return, or of a carriage return and a line
feed. -/
def unifyLineEnds : List Char → List Char
  | [] => []
  | '\r' :: '\n' :: rest => '\n' :: unifyLineEnds rest
  | '\r' :: rest => '\n' :: unifyLineEnds rest
  | c :: rest => c :: unifyLineEnds rest

/-- The lines of a text are all of it. -/
theorem flatten_linesWithBreaks (cs : List Char) : (linesWithBreaks cs).flatten = cs := by
  induction cs with
  | nil => rfl
  | cons c rest ih =>
    simp only [linesWithBreaks]
    split
    · simp [ih]
    · cases h : linesWithBreaks rest with
      | nil => rw [h] at ih; simp [← ih]
      | cons l ls => rw [h] at ih; simpa using ih

/-- What stands up to a character that is kept is kept. -/
theorem dropEndWhile_append {p : Char → Bool} (cs : List Char) {c : Char} (h : p c = false)
    (rest : List Char) : dropEndWhile p (cs ++ c :: rest) = cs ++ c :: dropEndWhile p rest := by
  induction cs with
  | nil =>
    rw [List.nil_append, List.nil_append, dropEndWhile]
    cases dropEndWhile p rest <;> simp [h]
  | cons d cs ih =>
    rw [List.cons_append, dropEndWhile, ih]
    cases cs <;> rfl

end Lexicon.Text
