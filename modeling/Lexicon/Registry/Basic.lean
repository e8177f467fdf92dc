import Lexicon.Check
import Lexicon.Compile.Bundle
import Lexicon.Registry.Source

/-!
# Registries

A registry holds compiled documents by their identifiers. A document that was not registered is
loaded from the first source that has it when it is first asked for, and compiled once. What the
registry holds under an identifier never changes.
-/

namespace Lexicon

/-- A registry. -/
structure Registry where
  /-- What tells this registry from others. -/
  id : Nat
  sources : List Source
  /-- Whether types that are not known are refused; the configuration decides if nothing is said. -/
  strict : Option Bool
  bundles : Entries Bundle := []
  deriving Repr, Inhabited

/-- A registry and what has been reported since it was made. -/
structure Store where
  registry : Registry
  log : List Event := []
  deriving Repr, Inhabited

/-- What is done with a registry. -/
abbrev Action := Check Store

namespace Action

variable {α : Type}

/-- Does what leaves the registry as it is. -/
def lift (result : Except Fault α) : Action α :=
  liftM result

/-- Reports an event. -/
def report (event : Event) : Action Unit :=
  modify fun store => { store with log := store.log ++ [event] }

/-- Does what reports events. -/
def trace (traced : Traced α) : Action α := do
  modify fun store => { store with log := store.log ++ traced.events }
  lift traced.outcome

/-- Changes the registry. -/
def update (change : Registry → Registry) : Action Unit :=
  modify fun store => { store with registry := change store.registry }

/-- The registry. -/
def registry : Action Registry := do
  return (← get).registry

@[simp] theorem run_lift (result : Except Fault α) (s : Store) :
    (lift result).run s = (result, s) := rfl

@[simp] theorem run_report (event : Event) (s : Store) :
    (report event).run s = (.ok (), { s with log := s.log ++ [event] }) := rfl

@[simp] theorem run_trace (traced : Traced α) (s : Store) :
    (trace traced).run s = (traced.outcome, { s with log := s.log ++ traced.events }) := rfl

@[simp] theorem run_update (change : Registry → Registry) (s : Store) :
    (update change).run s = (.ok (), { s with registry := change s.registry }) := rfl

@[simp] theorem run_registry (s : Store) : registry.run s = (.ok s.registry, s) := rfl

end Action

namespace Registry

/-- Whether types that are not known are refused, given what was said about it. -/
def decideStrict (env : Surroundings) : Option Bool → Except Fault Bool
  | some strict => .ok strict
  | none => return (← Config.ofEnvironment env.environment).strict

/-- Compiles a document whose references lead through this registry. -/
def compile (env : Surroundings) (id : BundleId) (strict : Option Bool) (d : Document) :
    Action Bundle := do
  let strict ← Action.lift (decideStrict env strict)
  let registry ← Action.registry
  Action.trace (d.compile id registry.id strict)

/-- Compiles a document and keeps it under an identifier. -/
def add (env : Surroundings) (nsid : String) (d : Document) : Action Bundle := do
  let registry ← Action.registry
  let bundle ← compile env (.registered registry.id nsid) registry.strict d
  Action.update fun r => { r with bundles := r.bundles.insert nsid bundle }
  return bundle

/-- Registers a document. A document that is equal to one that is registered is that one; a
different one with the same identifier is refused. -/
def register (env : Surroundings) (d : Document) : Action Bundle := do
  let registry ← Action.registry
  match registry.bundles.find? d.id with
  | some bundle =>
    if bundle.document.same d then return bundle
    else throw (.compile ⟨some d.id, .otherDocument, none⟩)
  | none => add env d.id d

/-- Loads a document from the first of the sources that has it. -/
def loadFrom (env : Surroundings) (nsid : String) : List Source → Action Bundle
  | [] => throw (.unresolved nsid mainKey [])
  | source :: rest => do
    match ← Action.lift (source.load env nsid) with
    | some d =>
      Action.report (.loading nsid source.describe)
      add env nsid d
    | none => loadFrom env nsid rest

/-- The bundle of an identifier; it is loaded if it has not been. -/
def bundle (env : Surroundings) (nsid : String) : Action Bundle := do
  let registry ← Action.registry
  match registry.bundles.find? nsid with
  | some bundle => return bundle
  | none => loadFrom env nsid registry.sources

/-- The compiled definition that a reference leads to. -/
def definition (env : Surroundings) (target : Reference) : Action CompiledDefinition := do
  let bundle ← bundle env target.nsid
  Action.lift (bundle.definition target.fragment)

/-- The compiled definition that a text refers to; a bare definition name refers to `base`. -/
def resolve (env : Surroundings) (text : String) (base : Option String) :
    Action CompiledDefinition := do
  definition env (← Action.lift (Reference.read text base))

/-- Adds a source after the others. -/
def addSource (source : Source) : Action Nat := do
  Action.update fun r => { r with sources := r.sources ++ [source] }
  return (← Action.registry).sources.length

/-! ## Checking values -/

/-- Checks a value by the definition that a reference leads to. `steps` bounds how many references
are followed one after the other. -/
def follow (env : Surroundings) : Nat → Reference → Value → Path → Action Value
  | 0, _, _, _ => throw .endless
  | steps + 1, target, v, path => do
    let definition ← definition env target
    definition.schema.checkWith (follow env steps) v path

/-- A bound of the number of definitions that this registry can ever hold. -/
def capacity (env : Surroundings) (r : Registry) : Nat :=
  r.sources.foldl (fun count source => count + source.capacity env)
    (r.bundles.flatMap fun e => e.2.definitions).length

/-- How many references can follow one another while a value is checked, unless they lead round in
a circle: every definition once at each level of the value. -/
def stepBound (env : Surroundings) (r : Registry) (v : Value) : Nat :=
  (v.depth + 1) * (r.capacity env + 1)

/-- Checks a value by a schema whose references lead through this registry. -/
def verdict (env : Surroundings) (s : Schema) (v : Value) : Action Schema.Verdict := do
  let registry ← Action.registry
  s.verdict (follow env (registry.stepBound env v)) v

/-- Checks a value by a schema; a failure is a fault. -/
def check (env : Surroundings) (s : Schema) (v : Value) : Action Value := do
  match ← verdict env s v with
  | .ok n => return n
  | .error failure => throw (.invalid failure)

/-- Checks a value by the definition that a text refers to. -/
def validate (env : Surroundings) (text : String) (v : Value) : Action Schema.Verdict := do
  let definition ← resolve env text none
  verdict env definition.schema v

/-- The text of a registry: how many bundles it holds, and its sources. -/
def describe (r : Registry) : String :=
  "LexiconRegistry(" ++ toString r.bundles.length ++ " lexicons, sources=[" ++
    ", ".intercalate (r.sources.map (·.describe)) ++ "])"

/-- The sources that a configuration asks for: its directories, and then the bundled documents. -/
def sourcesOf (config : Config) : List Source :=
  config.paths.map .directory ++ if config.bundled then [.bundled] else []

end Registry

end Lexicon
