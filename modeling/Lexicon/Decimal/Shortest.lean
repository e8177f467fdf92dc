import Lexicon.Decimal.Binary64

/-!
# Shortest decimals

The text of a double is the shortest decimal that reads back as that double, and of several such
decimals the nearest. For each count of digits from one to seventeen the two neighbours of the
exact value on that decimal grid are tried; the first count with a hit wins.
-/

namespace Lexicon.Decimal

/-- The number `digits * 10 ^ exponent`. -/
structure Scaled where
  digits : Nat
  exponent : Int
  deriving DecidableEq, Repr

/-- The count of decimal digits of a positive whole number. -/
def digitCount (n : Nat) : Nat :=
  (Nat.toDigits 10 n).length

/-- Multiplies a quotient by a power of ten. -/
def timesPowerOfTen (num den : Nat) : Int → Nat × Nat
  | .ofNat k => (num * Nat.pow 10 k, den)
  | .negSucc k => (num, den * Nat.pow 10 (k + 1))

/-- The least `p` for which the quotient is below `10 ^ p`. -/
def decimalExponent (num den : Nat) : Int :=
  let p : Int := (digitCount num : Int) - digitCount den
  let (n, d) := timesPowerOfTen num den (-p)
  if n < d then p else p + 1

/-- The decimal with `count` digits that reads back as `x`, if there is one, and the nearer one of
two; `num / den` is the size of `x`. -/
def withDigits? (x : Binary64) (num den count : Nat) : Option Scaled :=
  let unit := decimalExponent num den - count
  let (n, d) := timesPowerOfTen num den (-unit)
  let low := n / d
  let readsBack (k : Nat) : Bool := Binary64.ofDecimal x.isNegative k unit == x
  match readsBack low, readsBack (low + 1) with
  | true, false => some ⟨low, unit⟩
  | false, true => some ⟨low + 1, unit⟩
  | true, true => some ⟨Binary64.roundedQuotient n d, unit⟩
  | false, false => none

/-- The shortest decimal that reads back as the size of a finite double. The upper neighbour may be
the next power of ten, which is written without its zero. -/
def shortest (x : Binary64) : Scaled :=
  let (num, den) := x.ratio
  if num = 0 then ⟨0, 0⟩
  else
    match (List.range 17).findSome? fun count => withDigits? x num den (count + 1) with
    | some s => if s.digits % 10 = 0 then ⟨s.digits / 10, s.exponent + 1⟩ else s
    | none => ⟨num, 0⟩

/-- Where positional notation ends and how exponents are written: positional from `10 ^ low` up to
`10 ^ high`, and exponents with a sign and at least two digits. -/
structure Style where
  low : Int
  high : Int
  undefined : String
  infinity : String

/-- The exponent part of scientific notation. -/
def exponentText (e : Int) : List Char :=
  let size := Nat.toDigits 10 e.natAbs
  'e' :: (if e < 0 then '-' else '+') :: (if size.length < 2 then '0' :: size else size)

/-- Digits with a point after the first `point` of them, in positional notation. -/
def positional (digits : List Char) (point : Int) : List Char :=
  match point with
  | .ofNat (k + 1) =>
    if digits.length ≤ k + 1 then digits ++ List.replicate (k + 1 - digits.length) '0' ++ ['.', '0']
    else digits.take (k + 1) ++ '.' :: digits.drop (k + 1)
  | .ofNat 0 => '0' :: '.' :: digits
  | .negSucc k => '0' :: '.' :: List.replicate (k + 1) '0' ++ digits

/-- The text of a double. -/
def Style.render (style : Style) (x : Binary64) : String :=
  let sign := if x.isNegative then ['-'] else []
  if x.isUndefined then style.undefined
  else if !x.isFinite then String.ofList (sign ++ style.infinity.toList)
  else
    let s := shortest x
    let digits := Nat.toDigits 10 s.digits
    let point : Int := digits.length + s.exponent
    if s.digits = 0 then String.ofList (sign ++ ['0', '.', '0'])
    else if style.low ≤ point - 1 && point - 1 < style.high then
      String.ofList (sign ++ positional digits point)
    else
      let fraction := if digits.length < 2 then digits
        else digits.take 1 ++ '.' :: digits.drop 1
      String.ofList (sign ++ fraction ++ exponentText (point - 1))

end Lexicon.Decimal
