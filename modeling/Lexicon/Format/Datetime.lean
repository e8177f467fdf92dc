import Lexicon.Calendar
import Lexicon.Text.Digit

/-!
# Datetimes

A date, the letter `T`, a time of day with an optional fraction of a second, and an offset from UTC,
such as `2024-01-01T12:00:00.5Z`. Digits are ASCII, those of a fraction beyond the sixth apart. The
date exists, the offset is less than a day, and it is not written `-00:00`.
-/

namespace Lexicon.Datetime

/-- The number that the given count of ASCII digits at the beginning of a text stands for, and the
text after them. -/
def digits? : Nat → Nat → List Char → Option (Nat × List Char)
  | 0, n, cs => some (n, cs)
  | _ + 1, _, [] => none
  | count + 1, n, c :: rest =>
    if c.isDigit then digits? count (n * 10 + (c.toNat - 0x30)) rest else none

/-- The text after a given character. -/
def sign? (expected : Char) : List Char → Option (List Char)
  | [] => none
  | c :: rest => if c = expected then some rest else none

/-- Whether the digits of a fraction are ASCII up to the sixth. -/
def isFraction (cs : List Char) : Bool :=
  !cs.isEmpty && (cs.take 6).all Char.isDigit && (cs.drop 6).all Text.isDecimal

/-- The text after an optional fraction of a second. -/
def skipFraction? : List Char → Option (List Char)
  | '.' :: rest =>
    let fraction := rest.takeWhile Text.isDecimal
    if isFraction fraction then some (rest.drop fraction.length) else none
  | cs => some cs

/-- The minutes of an offset of less than a day that is all of a text. -/
def offset? : List Char → Option Int
  | ['Z'] => some 0
  | '+' :: rest => (offsetSize? rest).map fun n => (n : Int)
  | '-' :: rest =>
    if rest = ['0', '0', ':', '0', '0'] then none else (offsetSize? rest).map fun n => -(n : Int)
  | _ => none
where
  offsetSize? (cs : List Char) : Option Nat := do
    let (hours, rest) ← digits? 2 0 cs
    let rest ← sign? ':' rest
    let (minutes, rest) ← digits? 2 0 rest
    if rest.isEmpty && hours * 60 + minutes < 1440 then some (hours * 60 + minutes) else none

/-- What a datetime text says, its fraction apart. -/
structure Parts where
  date : Calendar.Date
  hour : Nat
  minute : Nat
  second : Nat
  offset : Int
  deriving DecidableEq, Repr

/-- Whether the date exists and the time of day does. -/
def Parts.isReal (p : Parts) : Bool :=
  p.date.isReal && p.hour ≤ 23 && p.minute ≤ 59 && p.second ≤ 59

/-- The parts of a text of the right form. -/
def parts? (cs : List Char) : Option Parts := do
  let (year, cs) ← digits? 4 0 cs
  let cs ← sign? '-' cs
  let (month, cs) ← digits? 2 0 cs
  let cs ← sign? '-' cs
  let (day, cs) ← digits? 2 0 cs
  let cs ← sign? 'T' cs
  let (hour, cs) ← digits? 2 0 cs
  let cs ← sign? ':' cs
  let (minute, cs) ← digits? 2 0 cs
  let cs ← sign? ':' cs
  let (second, cs) ← digits? 2 0 cs
  let cs ← skipFraction? cs
  let offset ← offset? cs
  some ⟨⟨year, month, day⟩, hour, minute, second, offset⟩

/-- Whether a text is a datetime. -/
def isValid (s : String) : Bool :=
  (parts? s.toList).any Parts.isReal

end Lexicon.Datetime
