import Lexicon.Identifier.Label

/-!
# Handles

Account handles are host names such as `alice.bsky.social`.
-/

namespace Lexicon.Handle

/-- The greatest length of a handle. -/
def maxLength : Nat := 253

/-- Whether a text is a handle; one newline may follow. -/
def isValid (s : String) : Bool :=
  s.length ≤ maxLength && Label.isHost (Text.dropFinalNewline s.toList)

end Lexicon.Handle
