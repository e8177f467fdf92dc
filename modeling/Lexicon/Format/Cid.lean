import Lexicon.Text.Base64
import Lexicon.Text.Split

/-!
# Content identifiers

A content identifier is a sequence of bytes: a version, the kind of the content, and a hash of it.
Its text names the base it is written in by its first character; the oldest form, forty-six
characters that begin with `Qm`, has no such character. Text up to `/ipfs/` is passed over.
-/

namespace Lexicon.Cid

/-- The value of a digit in an alphabet. -/
def digitIn (alphabet : List Char) (c : Char) : Option Nat :=
  alphabet.idxOf? c

/-- The bits of a number below `2 ^ width`, the highest first. -/
def bitsOf : Nat → Nat → List Bool
  | 0, _ => []
  | width + 1, n => bitsOf width (n / 2) ++ [n % 2 == 1]

/-- Whole bytes out of bits, the highest first, and the bits that are left over. -/
def packBits : List Bool → List UInt8 × List Bool
  | a :: b :: c :: d :: e :: f :: g :: h :: rest =>
    let byte := [a, b, c, d, e, f, g, h].foldl (fun n bit => n * 2 + if bit then 1 else 0) 0
    (UInt8.ofNat byte :: (packBits rest).1, (packBits rest).2)
  | rest => ([], rest)

/-- The bytes that digits of a power-of-two base stand for. The bits left over are zero and fewer
than a digit holds. -/
def fromDigits? (alphabet : List Char) (width : Nat) (cs : List Char) : Option (List UInt8) := do
  let digits ← cs.mapM (digitIn alphabet)
  let (bytes, surplus) := packBits (digits.flatMap (bitsOf width))
  if surplus.length < width && surplus.all (!·) then some bytes else none

/-- The digits of base 58, without the letters and digits that look alike. -/
def base58Alphabet : List Char :=
  "123456789ABCDEFGHJKLMNPQRSTUVWXYZabcdefghijkmnopqrstuvwxyz".toList

/-- The bytes of a number, the highest first and without leading zeros. -/
def bytesOfNat (n : Nat) : List UInt8 :=
  if n = 0 then [] else bytesOfNat (n / 256) ++ [UInt8.ofNat (n % 256)]
termination_by n
decreasing_by omega

/-- The bytes that a base-58 text stands for; each leading `1` is a zero byte. -/
def fromBase58? (cs : List Char) : Option (List UInt8) := do
  let digits ← cs.mapM (digitIn base58Alphabet)
  let zeros := (cs.takeWhile (· == '1')).length
  some (List.replicate zeros 0 ++ bytesOfNat (digits.foldl (fun n d => n * 58 + d) 0))

/-- The digits of base 32, in lower case. -/
def base32Alphabet : List Char :=
  "abcdefghijklmnopqrstuvwxyz234567".toList

/-- The digits of base 64 for use in URLs. -/
def base64UrlAlphabet : List Char :=
  "ABCDEFGHIJKLMNOPQRSTUVWXYZabcdefghijklmnopqrstuvwxyz0123456789-_".toList

/-- The bytes of a text whose first character names its base. -/
def fromNamedBase? : List Char → Option (List UInt8)
  | 'b' :: cs | 'B' :: cs => fromDigits? base32Alphabet 5 (cs.map Char.toLower)
  | 'f' :: cs | 'F' :: cs => fromDigits? "0123456789abcdef".toList 4 (cs.map Char.toLower)
  | 'z' :: cs => fromBase58? cs
  | 'm' :: cs => fromDigits? Text.Base64.alphabet 6 cs
  | 'u' :: cs => fromDigits? base64UrlAlphabet 6 cs
  | _ => none

/-- A number of at most the given count of bytes, seven bits to a byte and the lowest first, and
the bytes after it. It has no needless last byte. -/
def varint? : Nat → Bool → List UInt8 → Option (Nat × List UInt8)
  | 0, _, _ => none
  | _ + 1, _, [] => none
  | count + 1, first, b :: rest =>
    if b < 0x80 then if b = 0 && !first then none else some (b.toNat, rest)
    else (varint? count false rest).map fun r => (b.toNat % 128 + 128 * r.1, r.2)

/-- A number of up to 64 bits. -/
def number? (bytes : List UInt8) : Option (Nat × List UInt8) :=
  varint? 10 true bytes

/-- Whether bytes are a hash: its kind, its size, and as many bytes or more. -/
def isHash (bytes : List UInt8) : Bool :=
  match number? bytes with
  | none => false
  | some (_, rest) =>
    match number? rest with
    | none => false
    | some (size, digest) => size ≤ 64 && size ≤ digest.length

/-- Whether bytes are a content identifier. -/
def isCidBytes (bytes : List UInt8) : Bool :=
  match number? bytes with
  | none => false
  | some (version, rest) =>
    match number? rest with
    | none => false
    | some (codec, rest) =>
      if version = 0x12 ∧ codec = 0x20 then 32 ≤ rest.length
      else version == 1 && isHash rest

/-- The bytes of the text of an identifier. -/
def bytes? (cs : List Char) : Option (List UInt8) :=
  let cs := (Text.afterFirst? "/ipfs/".toList cs).getD cs
  if (String.ofList cs).utf8ByteSize < 2 then none
  else if (String.ofList cs).utf8ByteSize = 46 && cs.take 2 == ['Q', 'm'] then fromBase58? cs
  else fromNamedBase? cs

/-- Whether a text is a content identifier. -/
def isValid (s : String) : Bool :=
  (bytes? s.toList).any isCidBytes

end Lexicon.Cid
