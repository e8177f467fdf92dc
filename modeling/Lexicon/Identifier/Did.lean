import Lexicon.Text.Split

/-!
# Decentralized identifiers

`did:`, a method in lower case, and an identifier that does not end in a colon or a percent sign.
The methods `plc` and `web` are the ones in use.
-/

namespace Lexicon.Did

/-- The greatest length of an identifier. -/
def maxLength : Nat := 2048

/-- Whether a character may stand in the part after the method. -/
def isBodyChar (c : Char) : Bool :=
  c.isAlphanum || c == '.' || c == '_' || c == ':' || c == '%' || c == '-'

/-- Whether a character may end the part after the method. -/
def isFinalChar (c : Char) : Bool :=
  c.isAlphanum || c == '.' || c == '_' || c == '-'

/-- Whether a text can follow the method. -/
def isBody (cs : List Char) : Bool :=
  cs.all isBodyChar && cs.getLast?.any isFinalChar

/-- Method and body of a text that begins with `did:` and has a second colon. -/
def parts? (cs : List Char) : Option (List Char × List Char) :=
  match Text.after? ['d', 'i', 'd', ':'] cs with
  | none => none
  | some rest =>
    match Text.cutAt ':' rest with
    | (method, some body) => some (method, body)
    | (_, none) => none

/-- Whether a method is one of those in use. -/
def isBlessedMethod (method : List Char) : Bool :=
  method == ['p', 'l', 'c'] || method == ['w', 'e', 'b']

/-- Whether a text has the form of a decentralized identifier. -/
def isDid (cs : List Char) : Bool :=
  match parts? cs with
  | some (method, body) => !method.isEmpty && method.all Char.isLower && isBody body
  | none => false

/-- Whether a text has the form of one with a method in use. -/
def isBlessedDid (cs : List Char) : Bool :=
  match parts? cs with
  | some (method, body) => isBlessedMethod method && isBody body
  | none => false

/-- Whether a text is a decentralized identifier; one newline may follow. -/
def isValid (s : String) : Bool :=
  s.length ≤ maxLength && isDid (Text.dropFinalNewline s.toList)

/-- Whether a text is one with a method in use; one newline may follow. -/
def isBlessed (s : String) : Bool :=
  s.length ≤ maxLength && isBlessedDid (Text.dropFinalNewline s.toList)

/-- The method of a decentralized identifier. -/
def method? (s : String) : Option String :=
  if isValid s then (parts? s.toList).map fun p => String.ofList p.1 else none

end Lexicon.Did
