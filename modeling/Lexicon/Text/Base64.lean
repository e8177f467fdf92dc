/-!
# Base 64

Bytes as text, six bits to a character. The written form carries no padding. Reading tolerates
padding and ignores surplus bits in the last character.
-/

namespace Lexicon.Text.Base64

/-- The sixty-four digits in order of value. -/
def alphabet : List Char :=
  "ABCDEFGHIJKLMNOPQRSTUVWXYZabcdefghijklmnopqrstuvwxyz0123456789+/".toList

/-- The character of a six-bit number. -/
def digit (n : Nat) : Char :=
  alphabet.getD n 'A'

/-- The six-bit number that a character stands for. -/
def value? (c : Char) : Option Nat :=
  alphabet.idxOf? c

/-- The six-bit numbers that hold the bytes, the last filled up with zero bits. -/
def sextets : List UInt8 → List Nat
  | [] => []
  | [a] => [a.toNat / 4, a.toNat % 4 * 16]
  | [a, b] => [a.toNat / 4, a.toNat % 4 * 16 + b.toNat / 16, b.toNat % 16 * 4]
  | a :: b :: c :: rest =>
    a.toNat / 4 :: (a.toNat % 4 * 16 + b.toNat / 16) :: (b.toNat % 16 * 4 + c.toNat / 64) ::
      c.toNat % 64 :: sextets rest

/-- The whole bytes that six-bit numbers hold. -/
def ofSextets : List Nat → List UInt8
  | a :: b :: c :: d :: rest =>
    UInt8.ofNat (a * 4 + b / 16) :: UInt8.ofNat (b % 16 * 16 + c / 4) ::
      UInt8.ofNat (c % 4 * 64 + d) :: ofSextets rest
  | [a, b, c] => [UInt8.ofNat (a * 4 + b / 16), UInt8.ofNat (b % 16 * 16 + c / 4)]
  | [a, b] => [UInt8.ofNat (a * 4 + b / 16)]
  | _ => []

/-- Bytes as text, without padding. -/
def encode (bytes : List UInt8) : List Char :=
  (sextets bytes).map digit

/-- Whether a count of padding characters may follow a count of digits, once the whole has been
filled up with padding to a multiple of four. -/
def paddingFits (digits padding : Nat) : Bool :=
  match digits % 4 with
  | 0 => padding == 0 || digits != 0
  | 2 => padding == 2
  | 3 => padding == 1
  | _ => false

/-- Text as bytes. Missing padding is supplied first; then the digits must be followed by padding
that fits them, and nothing else may occur. -/
def decode? (cs : List Char) : Option (List UInt8) :=
  let filled := cs ++ List.replicate ((4 - cs.length % 4) % 4) '='
  let digits := filled.takeWhile (· != '=')
  let padding := filled.dropWhile (· != '=')
  if padding.all (· == '=') && paddingFits digits.length padding.length then
    (digits.mapM value?).map ofSextets
  else none

end Lexicon.Text.Base64
