import Lexicon.Files.FileSystem
import Lexicon.Registry.Bundled
import Lexicon.Settings.Config

/-!
# Sources

Where documents are loaded from when they are first asked for: a directory, the documents that come
with the library, or documents held in memory. A source gives for an identifier nothing or the
document with that identifier.
-/

namespace Lexicon

/-- What lies outside the library: the files and the variables of the environment. -/
structure Surroundings where
  files : FileSystem := {}
  environment : Entries String := []
  deriving Repr, Inhabited

/-- Where documents are loaded from. -/
inductive Source
  | directory (root : FilePath)
  | bundled
  | documents (documents : List Document)
  deriving Repr, Inhabited

namespace Source

/-- The files in which a directory may hold a document: one in nested directories, one directly in
it. -/
def candidates (root : FilePath) (nsid : String) : List FilePath :=
  let parts := (Text.splitOn '.' nsid.toList).map String.ofList
  [root.joinAll (parts.dropLast ++ [parts.getLastD "" ++ ".json"]),
    root.join (.ofString (nsid ++ ".json"))]

/-- Reads the first of the candidates that is a file; it must hold the document that is asked
for. -/
def loadFirst (files : FileSystem) (nsid : String) : List FilePath → Except Fault (Option Document)
  | [] => .ok none
  | path :: rest => do
    if ← files.test path FileTree.isFile then
      let document ← Document.ofFile path.text (← files.read path).toList
      if document.id = nsid then return some document
      else throw (.compile ⟨some document.id, .unexpectedId path.text nsid, none⟩)
    else loadFirst files nsid rest

/-- The document with an identifier, if the source has it. -/
def load (env : Surroundings) (nsid : String) : Source → Except Fault (Option Document)
  | .directory root =>
    if Nsid.isValid nsid then loadFirst env.files nsid (candidates root nsid) else .ok none
  | .bundled =>
    match Bundled.all.find? nsid with
    | some v => return some (← Document.ofValue v)
    | none => .ok none
  | .documents ds => .ok (ds.find? (·.id == nsid))

/-- The text of a source. -/
def describe : Source → String
  | .directory root => "DirectorySource(" ++ Text.quoted root.text ++ ")"
  | .bundled => "BundledSource()"
  | .documents _ => "DocumentSource()"

/-- The greatest number of compiled definitions that one definition gives: a call and its parts. -/
def compiledPerDefinition : Nat := 5

/-- A bound of the number of compiled definitions that a source can supply. A definition in a file
takes at least one character. -/
def capacity (env : Surroundings) : Source → Nat
  | .directory _ => compiledPerDefinition * env.files.tree.size
  | .bundled => compiledPerDefinition * (Bundled.all.flatMap fun e => Bundled.definitions e.2).length
  | .documents ds => compiledPerDefinition * (ds.flatMap fun d => d.definitions).length

end Source

end Lexicon
