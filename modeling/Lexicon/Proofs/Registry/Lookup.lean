import Lexicon.Proofs.Check.Simulation
import Lexicon.Registry.Basic

/-!
# What a registry finds

A registry answers for every identifier with the bundle it holds, with one that it loads, or with a
fault. The answers are a function of the registry, and asking does not change them: what is loaded
is what would be found again. Main statement: checking a value in a registry has the outcome of the
check that follows references through these answers and uses no state.
-/

namespace Lexicon

/-- What references lead to. -/
abbrev Lookup := Reference → Except Fault CompiledDefinition

/-- The definitions of the bundles that are found under identifiers. -/
def Lookup.ofBundles (bundles : String → Except Fault Bundle) : Lookup := fun target => do
  (← bundles target.nsid).definition target.fragment

/-- Checks a value by the definition that a reference leads to, without a state. -/
def Lookup.follow (look : Lookup) : Nat → Reference → Value → Path → Check Unit Value
  | 0, _, _, _ => throw .endless
  | steps + 1, target, v, path => do
    let definition ← liftM (look target)
    definition.schema.checkWith (look.follow steps) v path

/-- A check that follows references, in a number of steps, through the definitions that `find`
gives. -/
structure Check.Follows {σ : Type} (find : Reference → Check σ CompiledDefinition)
    (follow : Nat → Reference → Value → Path → Check σ Value) : Prop where
  zero (target : Reference) (v : Value) (path : Path) : follow 0 target v path = throw .endless
  succ (steps : Nat) (target : Reference) (v : Value) (path : Path) :
    follow (steps + 1) target v path =
      find target >>= fun definition => definition.schema.checkWith (follow steps) v path

theorem Lookup.follows (look : Lookup) :
    Check.Follows (fun target => liftM (look target)) look.follow :=
  ⟨fun _ _ _ => rfl, fun _ _ _ _ => rfl⟩

/-- Two ways to follow references are related in any number of steps if the definitions that they
find are. -/
theorem Check.Congruence.rel_follow {σ τ : Type} (C : Check.Congruence σ τ)
    {find : Reference → Check σ CompiledDefinition} {find' : Reference → Check τ CompiledDefinition}
    {follow : Nat → Reference → Value → Path → Check σ Value}
    {follow' : Nat → Reference → Value → Path → Check τ Value}
    (follows : Check.Follows find follow) (follows' : Check.Follows find' follow')
    (found : ∀ target, C.rel (find target) (find' target)) (steps : Nat) (target : Reference)
    (v : Value) (path : Path) :
    C.rel (follow steps target v path) (follow' steps target v path) := by
  induction steps generalizing target v path with
  | zero =>
    rw [follows.zero, follows'.zero]
    exact C.rel_throw _
  | succ steps ih =>
    rw [follows.succ, follows'.succ]
    exact C.rel_bind (found target) fun definition =>
      C.rel_checkWith_of_rel ih definition.schema v path

namespace Registry

variable (env : Surroundings)

/-- The bundle that a registry makes of a document under an identifier. -/
def compiled (r : Registry) (nsid : String) (d : Document) : Except Fault Bundle := do
  let strict ← decideStrict env r.strict
  (d.compile (.registered r.id nsid) r.id strict).outcome

/-- The bundle of the first of the sources that has a document for an identifier. -/
def loaded (r : Registry) (nsid : String) : List Source → Except Fault Bundle
  | [] => .error (.unresolved nsid mainKey [])
  | source :: rest => do
    match ← source.load env nsid with
    | some d => r.compiled env nsid d
    | none => loaded r nsid rest

/-- What is found under an identifier. -/
def found (r : Registry) (nsid : String) : Except Fault Bundle :=
  match r.bundles.find? nsid with
  | some b => .ok b
  | none => r.loaded env nsid r.sources

/-- The registry after a bundle was made for an identifier. -/
def keep (r : Registry) (nsid : String) : Except Fault Bundle → Registry
  | .ok b => { r with bundles := r.bundles.insert nsid b }
  | .error _ => r

/-- The registry after an identifier was asked for. -/
def asked (r : Registry) (nsid : String) : Registry :=
  match r.bundles.find? nsid with
  | some _ => r
  | none => r.keep nsid (r.loaded env nsid r.sources)

/-! ### What the actions do -/

/-- Compiling for a registry leaves it as it is. -/
theorem run_compile (id : BundleId) (strict : Option Bool) (d : Document) (s : Store) :
    ((compile env id strict d).run s).1 =
        (decideStrict env strict >>= fun decided => (d.compile id s.registry.id decided).outcome) ∧
      ((compile env id strict d).run s).2.registry = s.registry := by
  simp only [compile, Check.run_bind, Action.run_lift, Action.run_registry]
  cases decideStrict env strict <;> exact ⟨rfl, rfl⟩

theorem run_add (nsid : String) (d : Document) (s : Store) :
    ((add env nsid d).run s).1 = s.registry.compiled env nsid d ∧
      ((add env nsid d).run s).2.registry =
        s.registry.keep nsid (s.registry.compiled env nsid d) := by
  obtain ⟨outcome, registry⟩ :=
    run_compile env (.registered s.registry.id nsid) s.registry.strict d s
  simp only [add, compiled, Check.run_bind, Action.run_registry, ← outcome]
  generalize (compile env _ s.registry.strict d).run s = result at registry ⊢
  rcases result with ⟨e | b, s'⟩
  · exact ⟨rfl, registry⟩
  · have same : s'.registry = s.registry := registry
    simp only [Action.run_update, Check.run_pure, keep, same, and_self]

theorem run_loadFrom (nsid : String) (sources : List Source) (s : Store) :
    ((loadFrom env nsid sources).run s).1 = s.registry.loaded env nsid sources ∧
      ((loadFrom env nsid sources).run s).2.registry =
        s.registry.keep nsid (s.registry.loaded env nsid sources) := by
  induction sources generalizing s with
  | nil => exact ⟨rfl, rfl⟩
  | cons source rest ih =>
    simp only [loadFrom, loaded, Check.run_bind, Action.run_lift]
    cases source.load env nsid with
    | error e => exact ⟨rfl, rfl⟩
    | ok document =>
      cases document with
      | none => exact ih s
      | some d =>
        simp only [Check.run_bind, Action.run_report]
        exact run_add env nsid d _

theorem run_bundle (nsid : String) (s : Store) :
    ((bundle env nsid).run s).1 = s.registry.found env nsid ∧
      ((bundle env nsid).run s).2.registry = s.registry.asked env nsid := by
  simp only [bundle, found, asked, Check.run_bind, Action.run_registry]
  cases h : s.registry.bundles.find? nsid with
  | some b => exact ⟨rfl, rfl⟩
  | none => exact run_loadFrom env nsid _ s

theorem run_definition (target : Reference) (s : Store) :
    ((definition env target).run s).1 = Lookup.ofBundles (s.registry.found env) target ∧
      ((definition env target).run s).2.registry = s.registry.asked env target.nsid := by
  obtain ⟨outcome, registry⟩ := run_bundle env target.nsid s
  simp only [definition, Lookup.ofBundles, Check.run_bind, ← outcome, ← registry]
  rcases (bundle env target.nsid).run s with ⟨_ | b, s'⟩ <;> exact ⟨rfl, rfl⟩

/-! ### Answers that do not change -/

private theorem loaded_congr {r r' : Registry} (hid : r'.id = r.id) (hstrict : r'.strict = r.strict)
    (nsid : String) (sources : List Source) :
    r'.loaded env nsid sources = r.loaded env nsid sources := by
  induction sources with
  | nil => rfl
  | cons source rest ih => simp only [loaded, compiled, hid, hstrict, ih]

/-- Asking for an identifier changes no answer. -/
theorem found_asked (r : Registry) (nsid : String) :
    (r.asked env nsid).found env = r.found env := by
  unfold asked
  cases held : r.bundles.find? nsid with
  | some b => rfl
  | none =>
    cases made : r.loaded env nsid r.sources with
    | error e => rfl
    | ok b =>
      funext other
      simp only [found, keep, Entries.find?_insert]
      by_cases h : nsid = other
      · subst h
        simp [held, made]
      · simp only [h, if_false]
        cases r.bundles.find? other with
        | some b => rfl
        | none =>
          dsimp only
          apply loaded_congr <;> rfl

/-- A check in a registry, related to one without state: from any store whose registry gives the
answers `bundles` it has the same outcome, and leaves one that gives them too. -/
def answering (bundles : String → Except Fault Bundle) : Check.Congruence Store Unit where
  rel x y := ∀ s : Store, s.registry.found env = bundles →
    (x.run s).1 = y.outcome ∧ (x.run s).2.registry.found env = bundles
  rel_pure _ _ hs := ⟨rfl, hs⟩
  rel_throw _ _ hs := ⟨rfl, hs⟩
  rel_bind {_ _ x y f g} hxy hfg s hs := by
    obtain ⟨outcome, answers⟩ := hxy s hs
    rw [Check.run_bind, Check.outcome_bind, ← outcome]
    generalize x.run s = result at answers ⊢
    rcases result with ⟨_ | a, s'⟩
    · exact ⟨rfl, answers⟩
    · exact hfg a s' answers
  rel_attempt {_ x y} hxy s hs := by
    obtain ⟨outcome, answers⟩ := hxy s hs
    rw [Check.run_attempt, Check.outcome_attempt, ← outcome]
    generalize x.run s = result at answers ⊢
    rcases result with ⟨e | a, s'⟩
    · cases e <;> exact ⟨rfl, answers⟩
    · exact ⟨rfl, answers⟩

theorem follows : Check.Follows (definition env) (follow env) :=
  ⟨fun _ _ _ => rfl, fun _ _ _ _ => rfl⟩

theorem rel_follow (bundles : String → Except Fault Bundle) (steps : Nat) (target : Reference)
    (v : Value) (path : Path) :
    (answering env bundles).rel (follow env steps target v path)
      ((Lookup.ofBundles bundles).follow steps target v path) := by
  refine (answering env bundles).rel_follow (follows env) (Lookup.follows _) (fun t s hs => ?_)
    steps target v path
  obtain ⟨outcome, registry⟩ := run_definition env t s
  rw [outcome, registry, found_asked, hs]
  exact ⟨rfl, rfl⟩

/-- What references lead to in a registry. -/
def meaning (r : Registry) : Lookup :=
  Lookup.ofBundles (r.found env)

theorem rel_checkWith_follow (r : Registry) (steps : Nat) (schema : Schema) (v : Value)
    (path : Path) :
    (answering env (r.found env)).rel (schema.checkWith (follow env steps) v path)
      (schema.checkWith ((r.meaning env).follow steps) v path) :=
  Check.Congruence.rel_checkWith_of_rel _ (rel_follow env _ steps) schema v path

/-- Checking a value in a registry has the outcome that it has without a state, where references
lead to what they mean in the registry; and it leaves the answers of the registry as they are. -/
theorem run_verdict (schema : Schema) (v : Value) (s : Store) :
    ((verdict env schema v).run s).1 =
        Check.outcome (schema.verdict
          ((s.registry.meaning env).follow (s.registry.stepBound env v)) v) ∧
      ((verdict env schema v).run s).2.registry.found env = s.registry.found env := by
  simp only [verdict, Check.run_bind, Action.run_registry]
  exact (answering env (s.registry.found env)).rel_attempt
    (rel_checkWith_follow env s.registry _ schema v []) s rfl

end Registry

end Lexicon
