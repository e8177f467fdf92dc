import Lexicon.Proofs.Registry.Addressable
import Lexicon.Proofs.Workspace.Ordered

/-!
# Accessors of bundles

A value can be checked by a bundle under a key, by the definition that is taken from it, by the
schema that is taken from it, and by the name of the definition. Each of these hands a registry on
to every reference, whatever the reference is nested in, so that none is ever looked for in the
shared registry. Main statement: all accessors give one outcome, that of the registry of the bundle,
or else that of the registry that they are given, and nothing else in the workspace enters into it.
-/

namespace Lexicon

/-! ### What a registry depends on -/

namespace Registry

variable {env env' : Surroundings} {r r' : Registry}

/-- The variables of the environment decide only on strictness, where a registry leaves this
open. -/
theorem found_congr (files : env'.files = env.files)
    (strict : decideStrict env' r.strict = decideStrict env r.strict) :
    r.found env' = r.found env := by
  have loads (source : Source) (nsid : String) : source.load env' nsid = source.load env nsid := by
    cases source with
    | directory => simp only [Source.load, files]
    | bundled | documents => rfl
  have loaded (nsid : String) (sources : List Source) :
      r.loaded env' nsid sources = r.loaded env nsid sources := by
    induction sources with
    | nil => rfl
    | cons source rest ih => simp only [Registry.loaded, loads, compiled, strict, ih]
  funext nsid
  simp only [found, loaded]

/-- References are followed alike in registries that find the same, with any number of steps that is
enough. -/
theorem outcome_follow_eq (same : r'.found env = r.found env) {v : Value} {m n : Nat}
    (hm : r'.stepBound env v ≤ m) (hn : r.stepBound env v ≤ n) (target : Reference) (path : Path) :
    ((r'.meaning env).follow m target v path).outcome =
      ((r.meaning env).follow n target v path).outcome := by
  calc ((r'.meaning env).follow m target v path).outcome
    _ = r'.normalized env (.ref target) v path := (normalized_eq env hm (.ref target) path).symm
    _ = r.normalized env (.ref target) v path :=
      normalized_congr env (congrArg Lookup.ofBundles same) _ v path
    _ = ((r.meaning env).follow n target v path).outcome := normalized_eq env hn (.ref target) path

end Registry

/-! ### Checks that keep to one registry -/

namespace Workspace

variable {w w' w'' : Workspace} {id : Nat} {env : Surroundings}
  {bundles : String → Except Fault Bundle}

/-- Between two workspaces at most one registry and what was reported has changed. -/
structure StaysBut (id : Nat) (w w' : Workspace) : Prop where
  surroundings : w'.surroundings = w.surroundings
  shared : w'.shared = w.shared
  loose : w'.loose = w.loose
  others : ∀ other, other ≠ id → w'.registries[other]? = w.registries[other]?

theorem StaysBut.refl (id : Nat) (w : Workspace) : StaysBut id w w :=
  ⟨rfl, rfl, rfl, fun _ _ => rfl⟩

theorem StaysBut.trans (h : StaysBut id w w') (h' : StaysBut id w' w'') : StaysBut id w w'' :=
  ⟨h'.surroundings.trans h.surroundings, h'.shared.trans h.shared, h'.loose.trans h.loose,
    fun other hne => (h'.others other hne).trans (h.others other hne)⟩

/-- The registry of a number finds given bundles. -/
def Finds (id : Nat) (env : Surroundings) (bundles : String → Except Fault Bundle)
    (w : Workspace) : Prop :=
  w.surroundings = env ∧ ∃ r : Registry, w.registries[id]? = some r ∧ r.found env = bundles

/-- A check in a workspace, related to one without state: where the registry of a number finds
given bundles it has the same outcome, and changes nothing else, nor what is found there. -/
def answering (id : Nat) (env : Surroundings) (bundles : String → Except Fault Bundle) :
    Check.Congruence Workspace Unit where
  rel x y := ∀ w : Workspace, Finds id env bundles w →
    (x.run w).1 = y.outcome ∧ StaysBut id w (x.run w).2 ∧ Finds id env bundles (x.run w).2
  rel_pure _ w finds := ⟨rfl, .refl id w, finds⟩
  rel_throw _ w finds := ⟨rfl, .refl id w, finds⟩
  rel_bind {_ _ x y _ _} hx hf w finds := by
    obtain ⟨outcome, stays, finds⟩ := hx w finds
    rw [Check.run_bind, Check.outcome_bind, ← outcome]
    generalize x.run w = result at stays finds ⊢
    rcases result with ⟨_ | a, w₁⟩
    · exact ⟨rfl, stays, finds⟩
    · obtain ⟨outcome, stays', finds⟩ := hf a w₁ finds
      exact ⟨outcome, stays.trans stays', finds⟩
  rel_attempt {_ x y} hx w finds := by
    obtain ⟨outcome, stays, finds⟩ := hx w finds
    rw [Check.run_attempt, Check.outcome_attempt, ← outcome]
    generalize x.run w = result at stays finds ⊢
    rcases result with ⟨e | a, w₁⟩
    · cases e <;> exact ⟨rfl, stays, finds⟩
    · exact ⟨rfl, stays, finds⟩

theorem rel_within_definition (target : Reference) :
    (answering id env bundles).rel (within id (Registry.definition · target))
      (liftM (Lookup.ofBundles bundles target)) := by
  rintro w ⟨rfl, r, held, finds⟩
  obtain ⟨outcome, registry⟩ := Registry.run_definition w.surroundings target { registry := r }
  have inside : id < w.registries.length := (List.getElem?_eq_some_iff.mp held).1
  simp only [run_within, held]
  refine ⟨?_, ⟨rfl, rfl, rfl, fun other hne => ?_⟩, rfl, r.asked w.surroundings target.nsid, ?_, ?_⟩
  · rw [outcome, finds, Check.outcome_lift]
  · exact List.getElem?_set_ne hne.symm
  · rw [registry, List.getElem?_set_self inside]
  · rw [Registry.found_asked, finds]

theorem rel_follow (steps : Nat) (target : Reference) (v : Value) (path : Path) :
    (answering id env bundles).rel (follow id steps target v path)
      ((Lookup.ofBundles bundles).follow steps target v path) :=
  (answering id env bundles).rel_follow (follows id) (Lookup.follows _) rel_within_definition steps
    target v path

/-- A reference that is handed a registry does what it does there, with as many steps as are enough
for a value that is at least as deep. -/
theorem rel_followIn {r : Registry} {v v' : Value} (deep : v'.depth ≤ v.depth) (target : Reference)
    (path : Path) :
    (answering id env (r.found env)).rel (followIn (some id) target v' path)
      ((r.meaning env).follow (r.stepBound env v) target v' path) := by
  rintro w ⟨rfl, r', held, finds⟩
  have bound (s : Store) : (do return (← Action.registry).stepBound w.surroundings v' :
      Action Nat).run s = (.ok (s.registry.stepBound w.surroundings v'), s) := rfl
  have read : (within id fun env => return (← Action.registry).stepBound env v').run w =
      (.ok (r'.stepBound w.surroundings v'), w) := by
    obtain ⟨inside, rfl⟩ := List.getElem?_eq_some_iff.mp held
    rw [run_within, held]
    dsimp only
    rw [bound]
    simp only [List.set_getElem_self, List.append_nil]
  have same : (followIn (some id) target v' path).run w =
      (follow id (r'.stepBound w.surroundings v') target v' path).run w := by
    rw [followIn, orShared, Check.run_bind, Check.run_pure]
    simp only [Check.run_bind, read]
  obtain ⟨outcome, stays, finds'⟩ := rel_follow (r'.stepBound w.surroundings v') target v' path w
    ⟨rfl, r', held, finds⟩
  rw [same]
  refine ⟨outcome.trans ?_, stays, finds'⟩
  rw [← finds]
  exact Registry.outcome_follow_eq finds (Nat.le_refl _) (r.stepBound_mono w.surroundings deep)
    target path

/-- A check that is given a registry has the outcome that this registry gives, and changes nothing
else. -/
theorem run_validate {r : Registry} (held : w.registries[id]? = some r) (s : Schema) (v : Value) :
    ((validate (some id) s v).run w).1 =
        Registry.verdictOf (r.normalized w.surroundings s v []) ∧
      StaysBut id w ((validate (some id) s v).run w).2 := by
  let C := answering id w.surroundings (r.found w.surroundings)
  obtain ⟨outcome, stays, -⟩ := C.rel_attempt (C.rel_checkWith s v []
    (fun t => rel_followIn (Nat.le_refl _) t [])
    fun v' less t p => rel_followIn (Nat.le_of_lt less) t p) w ⟨rfl, r, held, rfl⟩
  rw [Registry.outcome_attempt_eq_verdictOf] at outcome
  exact ⟨outcome, stays⟩

end Workspace

/-! ### Accessors -/

namespace Bundle

variable (b : Bundle) (key : String) (registry : Option Nat) (v : Value)

/-- The verdict of the definition that is taken from a bundle. -/
def verdictOfMember : Work Schema.Verdict := do
  let member ← liftM (b.member key)
  member.validate registry v

/-- The verdict of the schema that is taken from a bundle. -/
def verdictOfValidator : Work Schema.Verdict := do
  let validator ← liftM (b.validator key)
  validator.validate registry v

/-- The verdict of a definition of a bundle, with references through one registry. -/
def verdictIn (id : Nat) : Work Schema.Verdict := do
  let definition ← liftM (b.definition key)
  Workspace.validate (some id) definition.schema v

/-- The definition leads its references where the schema does: through the registry that is given,
or else through that of the bundle. -/
theorem verdictOfMember_eq :
    b.verdictOfMember key registry v = b.verdictIn key v (registry.getD b.registry) := by
  rw [verdictOfMember, verdictIn, member]
  cases b.definition key with
  | error e => rfl
  | ok definition => cases registry <;> rfl

theorem verdictOfValidator_eq :
    b.verdictOfValidator key registry v = b.verdictIn key v (registry.getD b.registry) := by
  rw [verdictOfValidator, verdictIn, validator]
  cases b.definition key with
  | error e => rfl
  | ok definition => cases registry <;> rfl

variable {w : Workspace} {id : Nat} {r : Registry}

/-- With references through one registry the outcome is that of a check in this registry alone. -/
theorem run_verdictIn (held : w.registries[id]? = some r) :
    ((b.verdictIn key v id).run w).1 = (do
        let definition ← b.definition key
        Registry.verdictOf (r.normalized w.surroundings definition.schema v [])) ∧
      Workspace.StaysBut id w ((b.verdictIn key v id).run w).2 := by
  rw [verdictIn]
  cases b.definition key with
  | error e => exact ⟨rfl, .refl id w⟩
  | ok definition => exact Workspace.run_validate held definition.schema v

theorem fst_run_within_verdict (held : w.registries[id]? = some r) :
    ((Workspace.within id fun env => b.verdict env key v).run w).1 =
      ((b.verdictIn key v id).run w).1 := by
  rw [(b.run_verdictIn key v held).1, Workspace.run_within, held]
  dsimp only
  rw [verdict, Check.run_bind, Action.run_lift]
  cases b.definition key with
  | error e => rfl
  | ok definition => exact Registry.fst_run_verdict _ _ v _

/-- The name of a definition leads to it in the registry that holds the bundle. -/
theorem fst_run_within_validate {nsid : String} (held : w.registries[id]? = some r)
    (hb : r.bundles.find? nsid = some b) (valid : Nsid.isValid nsid = true)
    (fragment : Reference.isFragment key = true) :
    ((Workspace.within id (Registry.validate · (Reference.text ⟨nsid, key⟩) v)).run w).1 =
      ((b.verdictIn key v id).run w).1 := by
  have found (env : Surroundings) :
      (Registry.resolve env (Reference.text ⟨nsid, key⟩) none).run { registry := r } =
        (b.definition key, { registry := r }) := by
    simp only [Registry.resolve, Check.run_bind, Action.run_lift,
      Reference.read_text (r := ⟨nsid, key⟩) valid, if_pos fragment]
    exact Registry.run_definition_of_held hb
  rw [(b.run_verdictIn key v held).1, Workspace.run_within, held]
  dsimp only
  rw [Registry.validate, Check.run_bind, found]
  cases b.definition key with
  | error e => rfl
  | ok definition => exact Registry.fst_run_verdict _ _ v _

end Bundle

namespace Workspace

/-- **All accessors check alike.** Take a bundle that a registry holds in a workspace that began
with nothing, after any deeds. The definition and the schema that are taken from it do to a value
what the bundle does itself; and where the key is the main one or one that references can hold, the
registry has the same verdict by the name of the definition, since a document that was read has a
proper identifier. If a registry is given, definition and schema agree on it as well. In each case
the verdict is that of the one registry which leads the references, it leaves everything else as it
is, and it is the same wherever this registry stands, whatever is shared there: of the surroundings
only the files matter, and the configuration where it decides on the strictness of this registry. -/
theorem accessors_agree {w₀ : Workspace} (registries : w₀.registries = []) (loose : w₀.loose = [])
    (deeds : List Deed) {id : Nat} {r : Registry} {nsid : String} {b : Bundle}
    (held : (after deeds w₀).registries[id]? = some r) (hb : r.bundles.find? nsid = some b)
    (key : String) (v : Value) :
    let w := after deeds w₀
    (b.verdictOfMember key none v = b.validate key v ∧
      b.verdictOfValidator key none v = b.validate key v) ∧
    ((∀ u, Document.ofValue u = .ok b.document → Nsid.isValid nsid = true) ∧
      (∀ c, b.definition key = .ok c → c.canonicalName = Reference.text ⟨nsid, key⟩) ∧
      (Nsid.isValid nsid = true → key = mainKey ∨ Reference.isFragment key = true →
        ((within id (Registry.validate · (Reference.text ⟨nsid, key⟩) v)).run w).1 =
          ((b.validate key v).run w).1)) ∧
    ∀ (given : Option Nat) (leading : Registry),
      w.registries[given.getD id]? = some leading →
      b.verdictOfMember key given v = b.verdictOfValidator key given v ∧
      ((b.verdictOfMember key given v).run w).1 =
        ((within (given.getD id) fun env => b.verdict env key v).run w).1 ∧
      StaysBut (given.getD id) w ((b.verdictOfMember key given v).run w).2 ∧
      ∀ w' : Workspace, w'.registries[given.getD id]? = some leading →
        w'.surroundings.files = w.surroundings.files →
        Registry.decideStrict w'.surroundings leading.strict =
          Registry.decideStrict w.surroundings leading.strict →
        ((b.verdictOfMember key given v).run w').1 = ((b.verdictOfMember key given v).run w).1 := by
  intro w
  have belongs := ((ordered_after registries loose deeds).registries id r held).held nsid b hb
  obtain rfl : b.registry = id := belongs.registry
  have own : b.validate key v = b.verdictIn key v b.registry := rfl
  refine ⟨⟨?_, ?_⟩, ⟨fun u read => ?_, fun c hc => ?_, fun valid named => ?_⟩, ?_⟩
  · exact b.verdictOfMember_eq key none v
  · exact b.verdictOfValidator_eq key none v
  · rw [← belongs.faithful.id_eq]
    exact Document.isValid_of_ofValue read
  · exact congrArg Reference.text (belongs.reference hc)
  · have fragment : Reference.isFragment key = true := by
      rcases named with rfl | fragment
      · decide +kernel
      · exact fragment
    rw [own]
    exact b.fst_run_within_validate key v held hb valid fragment
  · intro given leading there
    have member := b.verdictOfMember_eq key given v
    refine ⟨member.trans (b.verdictOfValidator_eq key given v).symm, ?_⟩
    rw [member]
    obtain ⟨outcome, stays⟩ := b.run_verdictIn key v there
    refine ⟨(b.fst_run_within_verdict key v there).symm, stays, fun w' there' files strict => ?_⟩
    rw [(b.run_verdictIn key v there').1, outcome]
    have same : leading.meaning w'.surroundings = leading.meaning w.surroundings :=
      congrArg Lookup.ofBundles (Registry.found_congr files strict)
    refine bind_congr fun definition => ?_
    rw [Registry.normalized_congr w.surroundings same]

/-- A post that replies to another one, and a shared registry in which replies of posts are
something else: all accessors of the bundle accept it, and so does the registry of the bundle, while
the definition does not accept it with references through the shared registry. -/
theorem accessors_agree_reply :
    let post (reply : Definition) : Document := ⟨"com.example.post", [
      ("main", .object { properties := [
        ("reply", { type := .str "ref", options := [("ref", .str "#reply")] })] }),
      ("reply", reply)], .int 1, .null, .null, .null⟩
    let reply : Definition := .object { properties := [("uri", { type := .str "string" })] }
    let w := after [.share, .within 0 (.register (post (.field { type := .str "string" }))),
      .addRegistry [] none, .within 1 (.register (post reply))] {}
    let v : Value := .object [("reply", .object [("uri", .str "at://did:web:example.com")])]
    w.shared = some 0 ∧
    ∃ r b, w.registries[1]? = some r ∧ r.bundles.find? "com.example.post" = some b ∧
      ((b.validate "main" v).run w).1.toOption.any (·.isOk) = true ∧
      ((within 1 (Registry.validate · "com.example.post" v)).run w).1 =
        ((b.validate "main" v).run w).1 ∧
      ((b.verdictOfMember "main" (some 0) v).run w).1 =
        ((b.verdictOfValidator "main" (some 0) v).run w).1 ∧
      ((b.verdictOfMember "main" (some 0) v).run w).1.toOption.any (!·.isOk) = true := by
  intro post reply w v
  have checked : (w.registries[1]?.bind fun r =>
      (r.bundles.find? "com.example.post").map fun b =>
        (((b.validate "main" v).run w).1.toOption.any (·.isOk),
          ((b.verdictOfMember "main" (some 0) v).run w).1.toOption.any (!·.isOk))) =
      some (true, true) := by decide +kernel
  obtain ⟨r, held, checked⟩ := Option.bind_eq_some_iff.mp checked
  obtain ⟨b, hb, checked⟩ := Option.map_eq_some_iff.mp checked
  obtain ⟨accepted, refused⟩ := Prod.mk.inj checked
  obtain ⟨shared, there⟩ : ∃ shared, w.registries[0]? = some shared :=
    Option.isSome_iff_exists.mp (by decide +kernel)
  obtain ⟨-, ⟨-, -, named⟩, given⟩ := accessors_agree rfl rfl _ held hb "main" v
  refine ⟨by decide +kernel, r, b, held, hb, accepted, ?_, ?_, refused⟩
  · exact named (by decide +kernel) (.inl rfl)
  · rw [(given (some 0) shared there).1]

end Workspace

end Lexicon
