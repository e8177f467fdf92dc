import Lexicon.Fault
import Lexicon.Identifier.Did
import Lexicon.Identifier.Label
import Lexicon.Identifier.RecordKey
import Lexicon.Text.Blank

/-!
# URIs of repositories and records

`at://`, the owner of a repository, and optionally a collection and a record key. Queries and
fragments do not occur.
-/

namespace Lexicon

/-- An `at://` URI. A record key stands only in a collection. -/
structure AtUri where
  authority : String
  collection : Option String
  rkey : Option String
  rkey_in_collection : rkey.isSome = true → collection.isSome = true := by simp

namespace AtUri

/-- The URI with the given parts. -/
def ofParts (authority : String) (collection rkey : Option String) : Except Fault AtUri :=
  if h : rkey.isSome = true → collection.isSome = true then .ok ⟨authority, collection, rkey, h⟩
  else .error (.argument .keyWithoutCollection)

/-- Whether a text can own a repository. -/
def isAuthority (cs : List Char) : Bool :=
  Did.isBlessedDid cs || Label.isHost cs

/-- The URI that a text stands for; one newline may follow. -/
def decode? (s : String) : Option AtUri :=
  match Text.after? ['a', 't', ':', '/', '/'] (Text.dropFinalNewline s.toList) with
  | none => none
  | some rest =>
    match Text.splitOn '/' rest with
    | [a] => if isAuthority a then some ⟨String.ofList a, none, none, by simp⟩ else none
    | [a, c] =>
      if isAuthority a && Label.isNamespaced c then
        some ⟨String.ofList a, some (String.ofList c), none, by simp⟩
      else none
    | [a, c, k] =>
      if isAuthority a && Label.isNamespaced c && RecordKey.isKeyText k then
        some ⟨String.ofList a, some (String.ofList c), some (String.ofList k), by simp⟩
      else none
    | _ => none

/-- Whether a text is a URI. -/
def isValid (s : String) : Bool :=
  (decode? s).isSome

/-- The URI that a value stands for. -/
def ofValue (v : Value) : Except Fault AtUri :=
  match v.str?.bind decode? with
  | some uri => .ok uri
  | none => .error (.malformed "at:// URI" v)

/-- The text of a URI, without absent parts at its end. -/
def text (uri : AtUri) : String :=
  String.ofList <| Text.dropEndWhile (· == '/') <|
    ("at://" ++ uri.authority ++ "/" ++ uri.collection.getD "" ++ "/" ++
      uri.rkey.getD "").toList

end AtUri

end Lexicon
