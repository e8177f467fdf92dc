import Lexicon.Format.Cid
import Lexicon.Format.Datetime
import Lexicon.Format.Language
import Lexicon.Format.Uri
import Lexicon.Identifier.AtUri
import Lexicon.Identifier.Did
import Lexicon.Identifier.Handle
import Lexicon.Identifier.Nsid
import Lexicon.Identifier.RecordKey
import Lexicon.Identifier.Tid

/-!
# String formats

The closed set of formats that a string field can ask for. Each has a name, a test, and a sentence
for values that fail the test.
-/

namespace Lexicon

/-- A format of strings. -/
inductive Format
  | atIdentifier | atUri | cid | datetime | did | handle | language | nsid | recordKey | tid | uri
  deriving DecidableEq, Repr, Inhabited

namespace Format

/-- The formats in the order of their names. -/
def all : List Format :=
  [.atIdentifier, .atUri, .cid, .datetime, .did, .handle, .language, .nsid, .recordKey, .tid, .uri]

/-- The name of a format. -/
def name : Format → String
  | .atIdentifier => "at-identifier"
  | .atUri => "at-uri"
  | .cid => "cid"
  | .datetime => "datetime"
  | .did => "did"
  | .handle => "handle"
  | .language => "language"
  | .nsid => "nsid"
  | .recordKey => "record-key"
  | .tid => "tid"
  | .uri => "uri"

/-- The format with a given name. -/
def ofName? (name : String) : Option Format :=
  all.find? (·.name == name)

/-- What a value that does not have the format is told. -/
def message : Format → String
  | .atIdentifier => "should be a valid DID or handle"
  | .atUri => "should be a valid at:// URI"
  | .cid => "should be a valid CID"
  | .datetime => "should be a valid datetime"
  | .did => "should be a valid DID"
  | .handle => "should be a valid handle"
  | .language => "should be a valid BCP 47 language tag"
  | .nsid => "should be a valid NSID"
  | .recordKey => "should be a valid record key"
  | .tid => "should be a valid TID"
  | .uri => "should be a valid URI"

/-- Whether a text has a format. -/
def accepts : Format → String → Bool
  | .atIdentifier, s => Did.isValid s || Handle.isValid s
  | .atUri, s => AtUri.isValid s
  | .cid, s => Cid.isValid s
  | .datetime, s => Datetime.isValid s
  | .did, s => Did.isValid s
  | .handle, s => Handle.isValid s
  | .language, s => Language.isValid s
  | .nsid, s => Nsid.isValid s
  | .recordKey, s => RecordKey.isValid s
  | .tid, s => Tid.isValid s
  | .uri, s => Uri.isValid s

/-- Every format is found by its name. -/
theorem ofName?_name (f : Format) : ofName? f.name = some f := by
  cases f <;> decide

end Format

end Lexicon
