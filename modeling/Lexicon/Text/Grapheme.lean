import Lexicon.Text.GraphemeTable

/-!
# Grapheme clusters

User-perceived characters: the extended grapheme clusters of UAX 29. Boundaries are found in one
pass, which remembers the class of the character before, whether an emoji sequence is under way,
and whether an odd number of regional indicators has just been read.
-/

namespace Lexicon.Text.Grapheme

/-- The classes of characters that decide where clusters end. -/
inductive Break
  | cr | lf | control | extend | joiner | regional | opening | spacing
  | hangulL | hangulV | hangulT | hangulLV | hangulLVT | pictograph | other
  deriving DecidableEq, Repr

/-- The class of a character. -/
def breakOf (c : Char) : Break :=
  let n := c.toNat
  if n == 0x0d then .cr
  else if n == 0x0a then .lf
  else if 0x20 ≤ n && n < 0x7f then .other
  else if n == 0x200d then .joiner
  else if 0xac00 ≤ n && n ≤ 0xd7a3 then
    if (n - 0xac00) % 28 == 0 then .hangulLV else .hangulLVT
  else if (0x1100 ≤ n && n ≤ 0x115f) || (0xa960 ≤ n && n ≤ 0xa97c) then .hangulL
  else if (0x1160 ≤ n && n ≤ 0x11a7) || (0xd7b0 ≤ n && n ≤ 0xd7c6) then .hangulV
  else if (0x11a8 ≤ n && n ≤ 0x11ff) || (0xd7cb ≤ n && n ≤ 0xd7fb) then .hangulT
  else if 0x1f1e6 ≤ n && n ≤ 0x1f1ff then .regional
  else if inRanges controlRanges c then .control
  else if inRanges extendRanges c then .extend
  else if inRanges spacingMarkRanges c then .spacing
  else if inRanges prependRanges c then .opening
  else if inRanges pictographRanges c then .pictograph
  else .other

/-- What has been read of an emoji sequence: a pictograph and its extenders, and then a joiner. -/
inductive Emoji
  | none | picture | joined
  deriving DecidableEq, Repr

/-- What the characters before a position say about it. -/
structure Context where
  last : Break
  emoji : Emoji
  oddRegional : Bool
  deriving Repr

/-- The context after one more character. -/
def Context.next (ctx : Context) (b : Break) : Context :=
  { last := b
    emoji :=
      match b, ctx.emoji with
      | .pictograph, _ => .picture
      | .extend, .picture => .picture
      | .joiner, .picture => .joined
      | _, _ => .none
    oddRegional := b == .regional && !(ctx.last == .regional && ctx.oddRegional) }

/-- The context after the first character of a text. -/
def Context.start (b : Break) : Context :=
  { last := b
    emoji := if b == .pictograph then .picture else .none
    oddRegional := b == .regional }

/-- Whether a Hangul syllable goes on from one character to the next. -/
def hangulJoins : Break → Break → Bool
  | .hangulL, .hangulL | .hangulL, .hangulV | .hangulL, .hangulLV | .hangulL, .hangulLVT => true
  | .hangulLV, .hangulV | .hangulLV, .hangulT | .hangulV, .hangulV | .hangulV, .hangulT => true
  | .hangulLVT, .hangulT | .hangulT, .hangulT => true
  | _, _ => false

/-- Whether a character of class `b` begins a new cluster. -/
def Context.breaksBefore (ctx : Context) (b : Break) : Bool :=
  match ctx.last, b with
  | .cr, .lf => false
  | .cr, _ | .lf, _ | .control, _ => true
  | _, .cr | _, .lf | _, .control => true
  | _, .extend | _, .joiner | _, .spacing => false
  | .opening, _ => false
  | last, b =>
    !(hangulJoins last b || (ctx.emoji == .joined && b == .pictograph) ||
      (b == .regional && ctx.oddRegional))

/-- The number of clusters that begin in a text, given what stands before it. -/
def countAfter (ctx : Context) : List Char → Nat
  | [] => 0
  | c :: rest =>
    let b := breakOf c
    (if ctx.breaksBefore b then 1 else 0) + countAfter (ctx.next b) rest

/-- The number of clusters of a text. -/
def count : List Char → Nat
  | [] => 0
  | c :: rest => 1 + countAfter (Context.start (breakOf c)) rest

end Lexicon.Text.Grapheme
