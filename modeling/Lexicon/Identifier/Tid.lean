import Lexicon.Calendar
import Lexicon.Fault
import Lexicon.Identifier.Base32
import Lexicon.Text.Split

/-!
# Timestamp identifiers

A count of microseconds since the beginning of 1970 and a clock identifier of ten bits, written as
thirteen digits of sortable base 32: eleven for the time and two for the clock.
-/

namespace Lexicon

/-- A timestamp identifier: the time fits in 54 bits. -/
structure Tid where
  timestamp : Nat
  clockId : Nat
  timestamp_lt : timestamp < 0x40000000000000 := by decide
  clockId_lt : clockId < 1024 := by decide
  deriving DecidableEq, Repr

namespace Tid

/-- The identifier with the given parts. -/
def ofParts (timestamp clockId : Int) : Except Fault Tid :=
  if ht : 0 ≤ timestamp ∧ timestamp < 0x40000000000000 then
    if hc : 0 ≤ clockId ∧ clockId < 1024 then
      .ok ⟨timestamp.toNat, clockId.toNat, by omega, by omega⟩
    else .error (.argument (.clockIdRange clockId))
  else .error (.argument (.timestampRange timestamp))

/-- The identifier of a moment. -/
def ofMoment (moment : Calendar.Moment) (clockId : Int) : Except Fault Tid :=
  let elapsed := Calendar.Duration.ofMicroseconds moment.sinceEpoch
  ofParts elapsed.inMicroseconds clockId

/-- The moment of an identifier. -/
def moment (t : Tid) : Calendar.Moment :=
  .ofMicroseconds t.timestamp

/-- A numeral filled up with zero digits on the left. -/
def padded (width : Nat) (digits : List Char) : List Char :=
  List.replicate (width - digits.length) '2' ++ digits

/-- The thirteen characters of an identifier. -/
def chars (t : Tid) : List Char :=
  padded 11 (Base32.encode t.timestamp) ++ padded 2 (Base32.encode t.clockId)

/-- The text of an identifier. -/
def text (t : Tid) : String :=
  String.ofList t.chars

/-- Whether a character is a digit of sortable base 32. -/
def isDigit (c : Char) : Bool :=
  (Base32.value? c).isSome

/-- Whether a character is one of the sixteen lower digits. -/
def isLowDigit (c : Char) : Bool :=
  (Base32.value? c).any (· < 16)

/-- Whether thirteen digits stand here, the first a low one. -/
def isTidText (cs : List Char) : Bool :=
  cs.length == 13 && cs.all isDigit && cs.head?.any isLowDigit

/-- Whether a text has the form of an identifier; one newline may follow. -/
def isValid (s : String) : Bool :=
  isTidText (Text.dropFinalNewline s.toList)

/-- The number that a numeral stands for. -/
def readDigits (cs : List Char) : Except Fault Nat :=
  match Base32.decode cs with
  | .ok n => .ok n
  | .error c => .error (.argument (.foreignCharacter c (String.ofList cs)))

/-- The identifier that a text stands for, if it has the form of one. A newline at its end has that
form and yet is no digit. -/
def decode (s : String) : Except Fault (Option Tid) :=
  if isValid s then do
    let timestamp ← readDigits (s.toList.take 11)
    let clockId ← readDigits (s.toList.drop 11)
    return some (← ofParts timestamp clockId)
  else .ok none

/-- The identifier that a value stands for. -/
def ofValue (v : Value) : Except Fault Tid := do
  let found ← match v with
    | .str s => decode s
    | _ => .ok none
  match found with
  | some t => return t
  | none => .error (.malformed "TID" v)

/-- The order of identifiers: by time, then by clock. -/
def le (a b : Tid) : Bool :=
  a.timestamp < b.timestamp || (a.timestamp == b.timestamp && a.clockId ≤ b.clockId)

end Tid

end Lexicon
