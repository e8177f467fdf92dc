/-!
# Binary floating-point numbers

A double is kept as its bit pattern, so two of them can be compared and printed exactly. A finite
double is a whole number times a power of two; reading a decimal rounds its exact value to the
nearest double, and a value half way between two goes to the one with the even significand.
-/

namespace Lexicon

/-- A double, as the bits of its 64-bit format. -/
structure Binary64 where
  bits : UInt64
  deriving DecidableEq, Repr, Inhabited

namespace Binary64

/-- The value of the sign bit. -/
def signBit : Nat := 0x8000000000000000

/-- The value of the lowest bit of the exponent field, above the 52 bits of the significand. -/
def exponentBit : Nat := 0x10000000000000

/-- Whether the sign bit is set. -/
def isNegative (x : Binary64) : Bool :=
  signBit ≤ x.bits.toNat

/-- The bits without the sign. -/
def magnitude (x : Binary64) : Nat :=
  x.bits.toNat % signBit

/-- The exponent field. -/
def exponentField (x : Binary64) : Nat :=
  x.magnitude / exponentBit

/-- Whether the number is neither an infinity nor undefined. -/
def isFinite (x : Binary64) : Bool :=
  x.exponentField != 2047

/-- Whether the bits stand for no number. -/
def isUndefined (x : Binary64) : Bool :=
  x.exponentField == 2047 && x.magnitude % exponentBit != 0

/-- The whole number that a finite double multiplies by a power of two, without its sign. -/
def significand (x : Binary64) : Nat :=
  if x.exponentField = 0 then x.magnitude else x.magnitude % exponentBit + exponentBit

/-- The exponent of that power of two. -/
def exponent (x : Binary64) : Int :=
  if x.exponentField = 0 then -1074 else (x.exponentField : Int) - 1075

/-- Numerator and denominator of the size of a finite double. -/
def ratio (x : Binary64) : Nat × Nat :=
  match x.exponent with
  | .ofNat k => (x.significand <<< k, 1)
  | .negSucc k => (x.significand, 1 <<< (k + 1))

/-- A fraction with a sign: an infinity has denominator zero. -/
def fraction (x : Binary64) : Int × Nat :=
  let (num, den) := if x.isFinite then x.ratio else (1, 0)
  (if x.isNegative then -(num : Int) else num, den)

/-- The quotient of two whole numbers after one of them is multiplied by a power of two, so that
the quotient shrinks by `2 ^ q`. -/
def scaled (num den : Nat) : Int → Nat × Nat
  | .ofNat k => (num, den <<< k)
  | .negSucc k => (num <<< (k + 1), den)

/-- The whole number nearest to a quotient, the even one of two that are equally near. -/
def roundedQuotient (num den : Nat) : Nat :=
  let low := num / den
  let rest := num % den
  if den < 2 * rest || (2 * rest == den && low % 2 == 1) then low + 1 else low

/-- The exponent of the grid of doubles around a quotient. -/
def gridExponent (num den : Nat) : Int :=
  let first : Int := max (-1074) ((num.log2 : Int) - den.log2 - 52)
  let (n, d) := scaled num den first
  if n / d < exponentBit && -1074 < first then first - 1 else first

/-- The double nearest to a quotient, with the given sign. -/
def ofRatio (negative : Bool) (num den : Nat) : Binary64 :=
  let q := gridExponent num den
  let (n, d) := scaled num den q
  let size := (q + 1074).toNat * exponentBit + roundedQuotient n d
  ⟨UInt64.ofNat (min size (2047 * exponentBit) + if negative then signBit else 0)⟩

/-- The zero of the given sign. -/
def zero (negative : Bool) : Binary64 :=
  ⟨if negative then 0x8000000000000000 else 0⟩

/-- The infinity of the given sign. -/
def infinity (negative : Bool) : Binary64 :=
  ⟨if negative then 0xfff0000000000000 else 0x7ff0000000000000⟩

/-- The double nearest to `digits * 10 ^ exponent`, with the given sign. -/
def ofDecimal (negative : Bool) (digits : Nat) (exponent : Int) : Binary64 :=
  if digits = 0 then zero negative
  else if 400 < exponent then infinity negative
  else if exponent + digits.log2 < -400 then zero negative
  else match exponent with
    | .ofNat k => ofRatio negative (digits * Nat.pow 10 k) 1
    | .negSucc k => ofRatio negative digits (Nat.pow 10 (k + 1))

/-- The result of an undefined operation. -/
def undefined : Binary64 :=
  ⟨0x7ff8000000000000⟩

end Binary64

end Lexicon
