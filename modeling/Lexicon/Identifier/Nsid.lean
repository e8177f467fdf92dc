import Lexicon.Fault
import Lexicon.Identifier.Label

/-!
# Namespaced identifiers

A reversed host name followed by a name, such as `app.bsky.feed.post`. A reference names a
definition of the document with such an identifier: `app.bsky.feed.post#replyRef`, where the
definition `main` is meant if none is named.
-/

namespace Lexicon

/-- The definition that a document is named after. -/
def mainKey : String := "main"

namespace Nsid

/-- The greatest length of an identifier. -/
def maxLength : Nat := 317

/-- Whether a text is a namespaced identifier; one newline may follow. -/
def isValid (s : String) : Bool :=
  s.length ≤ maxLength && Label.isNamespaced (Text.dropFinalNewline s.toList)

end Nsid

/-- A namespaced identifier. -/
structure Nsid where
  text : String
  valid : Nsid.isValid text = true

namespace Nsid

/-- A text as an identifier, if it is one. -/
def ofString? (s : String) : Option Nsid :=
  if h : isValid s = true then some ⟨s, h⟩ else none

/-- A value as an identifier. -/
def ofValue (v : Value) : Except Fault Nsid :=
  match v with
  | .str s =>
    match ofString? s with
    | some n => .ok n
    | none => .error (.malformed "NSID" v)
  | _ => .error (.malformed "NSID" v)

/-- The parts between the dots. -/
def parts (n : Nsid) : List (List Char) :=
  Text.splitOn '.' n.text.toList

/-- The host name, in its usual order. -/
def authority (n : Nsid) : String :=
  String.ofList (Text.joinWith ['.'] n.parts.dropLast.reverse)

/-- The last part. -/
def name (n : Nsid) : String :=
  String.ofList (n.parts.getLastD [])

/-- The directories and the module name for generated source; a hyphen becomes an underscore. -/
def modulePath (n : Nsid) : List String :=
  n.parts.map fun p => String.ofList (p.map fun c => if c = '-' then '_' else c)

/-- The file of generated source, as path components. -/
def moduleFile (n : Nsid) : List String :=
  n.modulePath.dropLast ++ [n.modulePath.getLastD "" ++ ".py"]

end Nsid

/-- A definition of some document. -/
structure Reference where
  nsid : String
  fragment : String
  deriving DecidableEq, Repr, Inhabited

namespace Reference

/-- Whether a text can name a definition in a reference: a letter and up to 62 letters, digits,
underscores and hyphens; one newline may follow. -/
def isFragment (s : String) : Bool :=
  let cs := Text.dropFinalNewline s.toList
  cs.length ≤ 63 && cs.head?.any Char.isAlpha &&
    cs.all fun c => c.isAlphanum || c == '_' || c == '-'

/-- Identifier and definition name of a reference text, before they are checked. -/
def cut? (text : List Char) (base : Option String) : Option (String × String) :=
  match text with
  | '#' :: fragment => base.map (·, String.ofList fragment)
  | _ =>
    match Text.cutAt '#' text with
    | (nsid, some fragment) => some (String.ofList nsid, String.ofList fragment)
    | (nsid, none) => some (String.ofList nsid, mainKey)

/-- Reads a reference. A bare `#name` refers to the document `base`. -/
def read (text : String) (base : Option String) : Except Fault Reference :=
  match cut? text.toList base with
  | some (nsid, fragment) =>
    if Nsid.isValid nsid && isFragment fragment then .ok ⟨nsid, fragment⟩
    else .error (.malformed "lexicon reference" (.str text))
  | none => .error (.malformed "lexicon reference" (.str text))

/-- The shortest text of a reference: the definition is left out where it is the main one. -/
def text (r : Reference) : String :=
  if r.fragment = mainKey then r.nsid else r.nsid ++ "#" ++ r.fragment

end Reference

end Lexicon
