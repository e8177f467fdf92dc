import Lexicon.Text.Blank
import Lexicon.Text.Split

/-!
# URIs

A scheme, a colon, optionally two slashes, and text without white space that does not begin with a
slash. Between the two slashes and the next slash, question mark or hash sign stands the owner of
the resource; brackets there come in pairs and hold an IPv6 address or an address of a later
version, and no character there may be a disguised separator.
-/

namespace Lexicon.Uri

/-- The greatest length of a URI, in characters. -/
def maxLength : Nat := 8192

/-- Whether a character may follow the first one of a scheme. -/
def isSchemeChar (c : Char) : Bool :=
  c.isAlphanum || c == '+' || c == '.' || c == '-'

/-- Whether a text is a scheme. -/
def isScheme : List Char → Bool
  | [] => false
  | c :: rest => c.isAlpha && rest.all isSchemeChar

/-- Whether a text can follow the scheme and the slashes. -/
def isBody : List Char → Bool
  | [] => false
  | c :: rest => c != '/' && (c :: rest).all (!Text.isBlank ·)

/-- Whether a character is a hexadecimal digit. -/
def isHex (c : Char) : Bool :=
  c.isDigit || ('a' ≤ c && c ≤ 'f') || ('A' ≤ c && c ≤ 'F')

/-- Whether a text is one group of an IPv6 address. -/
def isGroup (cs : List Char) : Bool :=
  !cs.isEmpty && cs.length ≤ 4 && cs.all isHex

/-- Whether a text is a number of an IPv4 address. -/
def isOctet (cs : List Char) : Bool :=
  !cs.isEmpty && cs.length ≤ 3 && cs.all Char.isDigit && (cs.length == 1 || cs.head? != some '0') &&
    cs.foldl (fun n c => n * 10 + (c.toNat - 0x30)) 0 ≤ 255

/-- Whether a text is an IPv4 address. -/
def isIPv4 (cs : List Char) : Bool :=
  let octets := Text.splitOn '.' cs
  octets.length == 4 && octets.all isOctet

/-- The groups of an IPv6 address, with an IPv4 address at the end written as two groups. -/
def groups? (cs : List Char) : Option (List (List Char)) :=
  let parts := Text.splitOn ':' cs
  let last := parts.getLastD []
  if parts.length < 3 then none
  else if last.contains '.' then
    if isIPv4 last then some (parts.dropLast ++ [['0'], ['0']]) else none
  else some parts

/-- Whether groups form an IPv6 address in which one gap, an empty group that is not at an end,
stands for missing groups. -/
def isGapped (before after : List (List Char)) : Bool :=
  let high := if before.head? == some [] then before.drop 1 else before
  let low := if after.getLast? == some [] then after.dropLast else after
  (before.head? != some [] || high.isEmpty) && (after.getLast? != some [] || low.isEmpty) &&
    high.length + low.length ≤ 7 && high.all isGroup && low.all isGroup

/-- The number of empty groups that are not at an end. -/
def gaps (groups : List (List Char)) : Nat :=
  ((groups.drop 1).dropLast.filter List.isEmpty).length

/-- The groups before and after the gap. -/
def atGap (groups : List (List Char)) : List (List Char) × List (List Char) :=
  let before := groups.take 1 ++ (groups.drop 1).takeWhile (!List.isEmpty ·)
  (before, groups.drop (before.length + 1))

/-- Whether a text is an IPv6 address without a zone. -/
def isPlainIPv6 (cs : List Char) : Bool :=
  match groups? cs with
  | none => false
  | some groups =>
    groups.length ≤ 9 &&
      match gaps groups with
      | 0 => groups.length == 8 && groups.all isGroup
      | 1 => isGapped (atGap groups).1 (atGap groups).2
      | _ => false

/-- Whether a text is an IPv6 address, which may name a zone after a percent sign. -/
def isIPv6 (cs : List Char) : Bool :=
  match Text.cutAt '%' cs with
  | (address, none) => isPlainIPv6 address
  | (address, some zone) => !zone.isEmpty && !zone.contains '%' && isPlainIPv6 address

/-- Whether a text is an address of a later version: `v`, a hexadecimal version, a point, and the
address. -/
def isLaterAddress (cs : List Char) : Bool :=
  match cs with
  | 'v' :: rest =>
    match Text.cutAt '.' rest with
    | (version, some address) => !version.isEmpty && version.all isHex && !address.isEmpty
    | (_, none) => false
  | _ => false

/-- Whether a text may stand between brackets. -/
def isBracketed (cs : List Char) : Bool :=
  if cs.head? == some 'v' then isLaterAddress cs else isIPv6 cs

/-- Characters whose compatibility form holds a separator of URIs. -/
def disguisedSeparators : List Nat :=
  [0x2047, 0x2048, 0x2049, 0x2100, 0x2101, 0x2105, 0x2106, 0x2a74, 0xfe13, 0xfe16, 0xfe55, 0xfe56,
    0xfe5f, 0xfe6b, 0xff03, 0xff0f, 0xff1a, 0xff1f, 0xff20]

/-- Whether a text may name the owner of a resource. -/
def isAuthority (cs : List Char) : Bool :=
  let afterOpening := (Text.cutAt '[' cs).2
  let bracketsFit :=
    match afterOpening, cs.contains ']' with
    | none, closed => !closed
    | some _, false => false
    | some inner, true => isBracketed (Text.cutAt ']' inner).1
  bracketsFit && cs.all fun c => !disguisedSeparators.contains c.toNat

/-- The text up to the next slash, question mark or hash sign. -/
def authorityOf (cs : List Char) : List Char :=
  cs.takeWhile fun c => c != '/' && c != '?' && c != '#'

/-- Whether a text can follow the colon after the scheme. -/
def isRest (cs : List Char) : Bool :=
  match cs with
  | '/' :: '/' :: rest => isBody rest && isAuthority (authorityOf rest)
  | _ => isBody cs

/-- Whether a text is a URI; one newline may follow. -/
def isValid (s : String) : Bool :=
  s.length ≤ maxLength &&
    match Text.cutAt ':' (Text.dropFinalNewline s.toList) with
    | (scheme, some rest) => isScheme scheme && isRest rest
    | (_, none) => false

end Lexicon.Uri
