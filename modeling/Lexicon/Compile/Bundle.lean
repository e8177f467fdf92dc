import Lexicon.Compile.Definition
import Lexicon.Document.Basic

/-!
# Bundles

All compiled definitions of a document by their keys. Every definition that can have records gets a
class name of its own; the main one is named after the document, unless that name is taken.
-/

namespace Lexicon

/-- The class of the records of a compiled definition: the record type, which registry it resolves
references in, and how many classes were bound before it. -/
structure Binding where
  recordType : RecordType
  registry : Nat
  count : Nat := 0
  deriving Repr, Inhabited

/-- A compiled document. -/
structure Bundle where
  id : BundleId
  document : Document
  definitions : Entries CompiledDefinition
  /-- The registry that references are resolved in. -/
  registry : Nat
  /-- The classes that were bound in place of those that were compiled. -/
  bound : Entries Binding := []
  deriving Repr, Inhabited

namespace Document

/-- The keys that the parts of a call may have. -/
def partKeys : List String :=
  ["params", "input", "output", "message"]

/-- The class names that definitions other than the main one take, and the parts of a main call. -/
def takenNames (d : Document) : List String :=
  let others := (d.definitions.keys.filter (· ≠ mainKey)).map Naming.className
  match d.definitions.find? mainKey with
  | some main => if main.call?.isSome then others ++ partKeys.map Naming.className else others
  | none => others

/-- The class name of the main definition. -/
def mainClassName (d : Document) : String :=
  let last := (Text.splitOn '.' d.id.toList).getLastD []
  let name := Naming.className (String.ofList last)
  if d.takenNames.contains name then "Main" else name

/-- The class name of a definition. -/
def classNameOf (d : Document) (key : String) : String :=
  if key = mainKey then d.mainClassName else Naming.className key

/-- Refuses two definitions with one class name; `seen` holds the names so far with their keys. -/
def checkClassNames (d : Document) (seen : Entries String) : List String → Except Fault Unit
  | [] => .ok ()
  | key :: rest =>
    let name := d.classNameOf key
    match seen.find? name with
    | some first => .error (.compile ⟨some d.id, .sameClassName first key name, some key⟩)
    | none => checkClassNames d (seen.insert name key) rest

/-- Adds compiled definitions under new keys. -/
def addCompiled (id name : String) (done : Entries CompiledDefinition) :
    List CompiledDefinition → Except Fault (Entries CompiledDefinition)
  | [] => .ok done
  | c :: rest =>
    if done.has c.key then .error (.compile ⟨some id, .duplicateKey c.key, some name⟩)
    else addCompiled id name (done ++ [(c.key, c)]) rest

/-- Compiles definitions one after the other. -/
def compileDefinitions (d : Document) (strict : Bool) (done : Entries CompiledDefinition) :
    Entries Definition → Traced (Entries CompiledDefinition)
  | [] => pure done
  | (name, definition) :: rest => do
    let compiled ← definition.compile d.id name (d.classNameOf name) strict
    let done ← liftM <| addCompiled d.id name done compiled
    compileDefinitions d strict done rest

/-- The keys of the definitions, the main one last. -/
def keysMainLast (d : Document) : List String :=
  d.definitions.keys.filter (· ≠ mainKey) ++ d.definitions.keys.filter (· = mainKey)

/-- Compiles all definitions of a document. -/
def compileAll (d : Document) (strict : Bool) : Traced (Entries CompiledDefinition) := do
  liftM <| d.checkClassNames [] d.keysMainLast
  compileDefinitions d strict [] d.definitions

/-- Compiles a document to a bundle that resolves references in the given registry. -/
def compile (d : Document) (id : BundleId) (registry : Nat) (strict : Bool) : Traced Bundle :=
  Traced.operation "compile_lexicon" [("nsid", .str d.id)] do
    return { id, document := d, definitions := ← d.compileAll strict, registry }

end Document

namespace Bundle

/-- The keys of the compiled definitions. -/
def keys (b : Bundle) : List String :=
  b.definitions.keys

/-- The compiled definition under a key. -/
def definition (b : Bundle) (key : String) : Except Fault CompiledDefinition :=
  match b.definitions.find? key with
  | some c => .ok c
  | none => .error (.unresolved b.document.id key b.keys)

/-- The class of the records under a key, if there are any. -/
def binding? (b : Bundle) (key : String) : Option Binding :=
  match b.bound.find? key with
  | some binding => some binding
  | none => (b.definitions.find? key).bind fun c =>
    c.recordType.map fun t => { recordType := t, registry := b.registry }

/-- The class of records as they carry it. -/
def recordClass (b : Bundle) (key : String) (binding : Binding) : RecordClass :=
  binding.recordType.classOf ⟨b.id, key, binding.count⟩

/-- Binds a record type to a key from now on; it must have been made for the same definition. -/
def bind (b : Bundle) (key : String) (t : RecordType) (registry : Nat) : Except Fault Bundle := do
  let c ← b.definition key
  if t.nsid = b.document.id ∧ t.key = key then
    let count := match b.bound.find? key with
      | some binding => binding.count + 1
      | none => 1
    return { b with bound := b.bound.insert key ⟨t, registry, count⟩ }
  else
    throw (.argument (.otherClass t.name (Reference.text ⟨t.nsid, t.key⟩) c.canonicalName))

/-- The text of a bundle: its identifier and its keys. -/
def describe (b : Bundle) : String :=
  "LexiconBundle(" ++ Text.quoted b.document.id ++ ", keys=" ++
    (Value.list (b.keys.map .str)).literal ++ ")"

end Bundle

end Lexicon
