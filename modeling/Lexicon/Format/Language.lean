import Lexicon.Text.Split

/-!
# Language tags

Tags of BCP 47 without the irregular ones that predate its grammar: language, extended languages,
script, region, variants, extensions and a private part, in this order and separated by hyphens.
Letters are compared without regard to case, which lets four characters beyond ASCII count as the
letters whose case variants they are.
-/

namespace Lexicon.Language

/-- Whether a character is a letter: an ASCII letter, or one of the characters beyond ASCII that
have an ASCII letter as case variant. -/
def isLetter (c : Char) : Bool :=
  c.isAlpha || c.toNat == 0x130 || c.toNat == 0x131 || c.toNat == 0x17f || c.toNat == 0x212a

/-- Whether a character is a letter or an ASCII digit. -/
def isLetterOrDigit (c : Char) : Bool :=
  isLetter c || c.isDigit

/-- Whether a subtag consists of characters of a class, and its length lies between two bounds. -/
def isSubtag (p : Char → Bool) (low high : Nat) (cs : List Char) : Bool :=
  low ≤ cs.length && cs.length ≤ high && cs.all p

/-- Whether a subtag is the letter `x`, which opens a private part. -/
def isPrivateMark (cs : List Char) : Bool :=
  cs == ['x'] || cs == ['X']

/-- Whether a subtag is the letter `i` in one of its case variants. -/
def isRegisteredMark (cs : List Char) : Bool :=
  match cs with
  | [c] => c == 'i' || c == 'I' || c.toNat == 0x130 || c.toNat == 0x131
  | _ => false

/-- Whether a subtag opens an extension. -/
def isSingleton (cs : List Char) : Bool :=
  isSubtag isLetterOrDigit 1 1 cs && !isPrivateMark cs

/-- Whether a subtag is a variant: five to eight letters and digits, or a digit and three more. -/
def isVariant (cs : List Char) : Bool :=
  isSubtag isLetterOrDigit 5 8 cs ||
    (isSubtag isLetterOrDigit 4 4 cs && cs.head?.any Char.isDigit)

/-- Whether a subtag is a region. -/
def isRegion (cs : List Char) : Bool :=
  isSubtag isLetter 2 2 cs || isSubtag Char.isDigit 3 3 cs

/-- The subtags after those at the front that satisfy a predicate, at most the given number. -/
def skip (p : List Char → Bool) : Nat → List (List Char) → List (List Char)
  | 0, tags => tags
  | _ + 1, [] => []
  | n + 1, tag :: tags => if p tag then skip p n tags else tag :: tags

/-- Whether subtags are a private part, or nothing. -/
def isPrivatePart : List (List Char) → Bool
  | [] => true
  | mark :: tags => isPrivateMark mark && !tags.isEmpty && tags.all (isSubtag isLetterOrDigit 1 8)

/-- Whether subtags are the rest of an extension, and then extensions and a private part. The flag
tells whether the extension has a subtag already. -/
def isExtensionRest : Bool → List (List Char) → Bool
  | complete, [] => complete
  | complete, tag :: tags =>
    if isSubtag isLetterOrDigit 2 8 tag then isExtensionRest true tags
    else complete && if isSingleton tag then isExtensionRest false tags
      else isPrivatePart (tag :: tags)

/-- Whether subtags are extensions and a private part. -/
def isExtensions : List (List Char) → Bool
  | [] => true
  | tag :: tags =>
    if isSingleton tag then isExtensionRest false tags else isPrivatePart (tag :: tags)

/-- Whether subtags can follow the language: script, region, variants and the rest. -/
def isAfterLanguage (tags : List (List Char)) : Bool :=
  let tags := skip (isSubtag isLetter 4 4) 1 tags
  let tags := skip isRegion 1 tags
  isExtensions (skip isVariant tags.length tags)

/-- Whether subtags are a language tag. -/
def isTag : List (List Char) → Bool
  | [] => false
  | first :: rest =>
    if isSubtag isLetter 2 3 first then isAfterLanguage (skip (isSubtag isLetter 3 3) 3 rest)
    else if isSubtag isLetter 4 8 first then isAfterLanguage rest
    else if isPrivateMark first then isPrivatePart (first :: rest)
    else
      match rest with
      | [name] => isRegisteredMark first && isSubtag isLetter 2 8 name
      | _ => false

/-- Whether a text is a language tag; one newline may follow. -/
def isValid (s : String) : Bool :=
  isTag (Text.splitOn '-' (Text.dropFinalNewline s.toList))

end Lexicon.Language
