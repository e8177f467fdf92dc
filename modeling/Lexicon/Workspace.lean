import Lexicon.Module.Render
import Lexicon.Record.Encode
import Lexicon.Record.Hydrate

/-!
# Workspaces

Everything that a running program holds: files, environment variables, registries, and the bundles
that were compiled without being registered. One registry is shared by default; it is set up from
the configuration when it is first used.
-/

namespace Lexicon

/-- What a running program holds. A registry stands at the position that is its number. -/
structure Workspace where
  surroundings : Surroundings := {}
  registries : List Registry := []
  loose : List Bundle := []
  shared : Option Nat := none
  log : List Event := []
  deriving Repr, Inhabited

/-- What is done in a workspace. -/
abbrev Work := Check Workspace

namespace Workspace

variable {α : Type}

/-- Sets up a registry. -/
def addRegistry (sources : List Source) (strict : Option Bool) : Work Nat := do
  let id := (← get).registries.length
  modify fun w => { w with registries := w.registries ++ [{ id, sources, strict }] }
  return id

/-- Does something with a registry. What it did to the registry stays even if it ends with a
fault. -/
def within (id : Nat) (action : Surroundings → Action α) : Work α := do
  let w ← get
  match w.registries[id]? with
  | none => throw .outOfRange
  | some registry =>
    let (outcome, store) := (action w.surroundings).run { registry }
    modify fun w =>
      { w with registries := w.registries.set id store.registry, log := w.log ++ store.log }
    liftM outcome

/-- What is done with a registry is done at its place, and what it reports is reported. -/
theorem run_within (id : Nat) (action : Surroundings → Action α) (w : Workspace) :
    (within id action).run w = match w.registries[id]? with
      | none => (.error .outOfRange, w)
      | some r =>
        let result := (action w.surroundings).run { registry := r }
        (result.1, { w with
          registries := w.registries.set id result.2.registry, log := w.log ++ result.2.log }) := by
  have read : (get : Work Workspace).run w = (.ok w, w) := rfl
  rw [within, Check.run_bind, read]
  cases held : w.registries[id]? with
  | none =>
    simp only [held]
    rfl
  | some r =>
    simp only [held]
    rfl

/-- The shared registry. -/
def sharedRegistry : Work Nat := do
  let w ← get
  match w.shared with
  | some id => return id
  | none =>
    let config ← liftM (Config.ofEnvironment w.surroundings.environment)
    let id ← addRegistry (Registry.sourcesOf config) (some config.strict)
    modify fun w => { w with shared := some id }
    return id

/-- The registry that is given, or else the shared one. -/
def orShared : Option Nat → Work Nat
  | some id => pure id
  | none => sharedRegistry

/-- Replaces the environment variables; the shared registry will be set up anew. -/
def setEnvironment (environment : Entries String) : Work Unit :=
  modify fun w =>
    { w with surroundings := { w.surroundings with environment }, shared := none }

/-- The bundle with a given identity. -/
def bundle (id : BundleId) : Work Bundle := do
  let w ← get
  let found := match id with
    | .registered registry nsid => w.registries[registry]?.bind fun r => r.bundles.find? nsid
    | .loose number => w.loose[number]?
  match found with
  | some b => return b
  | none => throw .outOfRange

/-- Puts a bundle in the place of the one with the same identity. -/
def replaceBundle (b : Bundle) : Work Unit :=
  modify fun w =>
    match b.id with
    | .registered registry nsid =>
      { w with registries := w.registries.modify registry fun r =>
          { r with bundles := r.bundles.insert nsid b } }
    | .loose number => { w with loose := w.loose.set number b }

/-- Compiles a document without registering it. Without a registry, one is set up for the document
alone. -/
def compile (d : Document) (registry : Option Nat) (strict : Option Bool) : Work Bundle :=
  match registry with
  | none => do
    let id ← addRegistry [] strict
    within id (Registry.register · d)
  | some id => do
    let number := (← get).loose.length
    let b ← within id (Registry.compile · (.loose number) strict d)
    modify fun w => { w with loose := w.loose ++ [b] }
    return b

/-- What is compiled for a registry is kept apart from it. -/
theorem run_compile_some (d : Document) (id : Nat) (strict : Option Bool) (w : Workspace) :
    (compile d (some id) strict).run w =
      match (within id (Registry.compile · (.loose w.loose.length) strict d)).run w with
      | (.ok b, w') => (.ok b, { w' with loose := w'.loose ++ [b] })
      | (.error e, w') => (.error e, w') := by
  have read : (get : Work Workspace).run w = (.ok w, w) := rfl
  rw [compile, Check.run_bind, read]
  dsimp only
  rw [Check.run_bind]
  generalize (within id _).run w = result
  rcases result with ⟨_ | b, w'⟩ <;> rfl

/-! ## Checking values -/

/-- Checks a value by the definition that a reference leads to in a registry, through which the
references of the definition lead as well. `steps` bounds how many references are followed one after
the other. -/
def follow (id : Nat) : Nat → Reference → Value → Path → Work Value
  | 0, _, _, _ => throw .endless
  | steps + 1, target, v, path => do
    let definition ← within id (Registry.definition · target)
    definition.schema.checkWith (follow id steps) v path

/-- Checks a value by what a reference leads to in the registry that is given, or else in the shared
one. -/
def followIn (registry : Option Nat) (target : Reference) (v : Value) (path : Path) :
    Work Value := do
  let id ← orShared registry
  let steps ← within id fun env => return (← Action.registry).stepBound env v
  follow id steps target v path

/-- Checks a whole value by a schema, with references through the registry that is given, or else
through the shared one. -/
def validate (registry : Option Nat) (s : Schema) (v : Value) : Work Schema.Verdict :=
  s.verdict (followIn registry) v

end Workspace

/-- A schema that brings a registry for its references, which leads them unless another one is
given. -/
structure Schema.Bound where
  inner : Schema
  registry : Nat
  deriving Repr, Inhabited

/-- Checks a value at a path. -/
def Schema.Bound.checkWith (bound : Schema.Bound) (registry : Option Nat) (v : Value)
    (path : Path) : Work Value :=
  bound.inner.checkWith (Workspace.followIn (some (registry.getD bound.registry))) v path

/-- Checks a whole value. -/
def Schema.Bound.validate (bound : Schema.Bound) (registry : Option Nat) (v : Value) :
    Work Schema.Verdict :=
  Check.attempt (bound.checkWith registry v [])

/-- A compiled definition on its own. Its references lead through the registry that is given, or
else through the one that it was compiled for, if there is one. -/
structure CompiledDefinition.Member where
  definition : CompiledDefinition
  registry : Option Nat
  deriving Repr, Inhabited

/-- Checks a whole value by a definition. -/
def CompiledDefinition.Member.validate (member : CompiledDefinition.Member)
    (registry : Option Nat) (v : Value) : Work Schema.Verdict :=
  Workspace.validate (registry.or member.registry) member.definition.schema v

namespace Bundle

/-- The definition under a key, with the registry of the bundle. -/
def member (b : Bundle) (key : String) : Except Fault CompiledDefinition.Member := do
  return ⟨← b.definition key, some b.registry⟩

/-- The schema under a key, which brings the registry of the bundle. -/
def validator (b : Bundle) (key : String) : Except Fault Schema.Bound := do
  return ⟨(← b.definition key).schema, b.registry⟩

/-- Checks a whole value by the definition under a key, with references through the registry of the
bundle. -/
def validate (b : Bundle) (key : String) (v : Value) : Work Schema.Verdict := do
  let definition ← liftM (b.definition key)
  Workspace.validate (some b.registry) definition.schema v

end Bundle

namespace Workspace

/-- Checks a value by a schema, with references through the given registry or else through the one
of the bundle. -/
def verdict (b : Bundle) (registry : Option Nat) (s : Schema) (v : Value) : Work Schema.Verdict :=
  Schema.Bound.validate ⟨s, b.registry⟩ registry v

/-- Checks a value by the class of a key of a bundle and makes a record of it. -/
def readRecord (b : Bundle) (key : String) (v : Value) : Work Value :=
  within (b.readingRegistry key) fun env => b.readRecord env key v

/-- Checks a value by a definition of a bundle, and makes a record of it if the definition has
records. -/
def read (b : Bundle) (key : String) (v : Value) : Work Value :=
  within (b.readingRegistry key) fun env => b.read env key v

/-- Makes a record of a bundle from arguments. -/
def makeRecord (b : Bundle) (key : String) (arguments : Entries Value) : Work Value := do
  let _ ← liftM (b.definition key)
  match b.binding? key with
  | some binding => liftM (binding.recordType.record (b.classId key binding) arguments)
  | none => throw .wrongType

/-- Binds an empty class of the given name, made from a class of another bundle, to a key. -/
def bindClass (b : Bundle) (key : String) (from_ : Bundle) (fromKey name : String) :
    Work Bundle := do
  let _ ← liftM (from_.definition fromKey)
  match from_.binding? fromKey with
  | none => throw .wrongType
  | some binding =>
    let b ← liftM (b.bind key { binding.recordType with name } binding.registry)
    replaceBundle b
    return b

/-- Writes the module of a bundle below a directory. -/
def writeModule (b : Bundle) (directory : FilePath) : Work FilePath := do
  let path ← liftM (Module.pathOf directory b.document.id)
  let w ← get
  let files ← liftM (w.surroundings.files.write path (Module.render b))
  modify fun w =>
    { w with
      surroundings := { w.surroundings with files }
      log := w.log ++ [.generated b.document.id path.text] }
  return path

/-- The contents of a file. -/
def readFile (path : FilePath) : Work String := do
  liftM ((← get).surroundings.files.read path)

/-- The document in a file. -/
def readDocument (path : FilePath) : Work Document := do
  let contents ← readFile path
  liftM (Document.ofFile path.text contents.toList)

/-- The settings of the environment and of an environment file, which may be missing. -/
def readConfig (file : Option FilePath) : Work Config := do
  let w ← get
  let environment := w.surroundings.environment
  match file with
  | none => liftM (Config.ofEnvironment environment)
  | some path =>
    let contents := match w.surroundings.files.find path with
      | .ok (.file contents) => contents
      | _ => ""
    liftM (Config.ofEnvironmentAndFile environment contents environment)

end Workspace

end Lexicon
