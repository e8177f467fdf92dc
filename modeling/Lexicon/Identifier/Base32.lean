import Lexicon.Fault

/-!
# Sortable base 32

A positional numeral system whose digits are in code-point order, so that numerals of one length
sort like the numbers they stand for. Numerals are written without leading zero digits; zero is the
empty numeral.
-/

namespace Lexicon.Base32

/-- The thirty-two digits in order of value. -/
def alphabet : List Char :=
  "234567abcdefghijklmnopqrstuvwxyz".toList

/-- The digit of a number below thirty-two. -/
def digit (n : Nat) : Char :=
  alphabet.getD n '2'

/-- The number that a digit stands for. -/
def value? (c : Char) : Option Nat :=
  alphabet.idxOf? c

/-- The numeral of a number. -/
def encode (n : Nat) : List Char :=
  if n = 0 then [] else encode (n / 32) ++ [digit (n % 32)]
termination_by n
decreasing_by omega

/-- The number that a numeral stands for after the digits already read, or the first character
that is no digit. -/
def decodeFrom (n : Nat) : List Char → Except Char Nat
  | [] => .ok n
  | c :: rest =>
    match value? c with
    | some d => decodeFrom (n * 32 + d) rest
    | none => .error c

/-- The number that a numeral stands for, or the first character that is no digit. -/
def decode (cs : List Char) : Except Char Nat :=
  decodeFrom 0 cs

/-- The text of the numeral of an integer; a negative integer has none. -/
def write (n : Int) : Except Fault String :=
  if n < 0 then .error (.argument (.negative n)) else .ok (String.ofList (encode n.toNat))

/-- The number that a text stands for. -/
def read (s : String) : Except Fault Nat :=
  (decode s.toList).mapError fun c => .argument (.foreignCharacter c s)

end Lexicon.Base32
