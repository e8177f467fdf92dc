import Lexicon.Proofs.Registry.Faults
import Lexicon.Proofs.Registry.Verdict

/-!
# Stability of verdicts

A registry only grows: what it holds under an identifier it holds from then on. A check that ended
with a result or a failure has loaded all that it needed, so that it would run again in the same way
in any larger registry, whatever the files and the environment have become. Main statements: a
verdict that was given once is given again after any calls, and no reference that leads nowhere was
followed on the way to it.
-/

namespace Lexicon

namespace Registry

/-- The second registry holds all that the first one holds. -/
def Grows (r r' : Registry) : Prop :=
  ∀ nsid b, r.bundles.find? nsid = some b → r'.bundles.find? nsid = some b

theorem Grows.refl (r : Registry) : r.Grows r := fun _ _ h => h

theorem Grows.trans {r r' r'' : Registry} (h : r.Grows r') (h' : r'.Grows r'') : r.Grows r'' :=
  fun nsid b held => h' nsid b (h nsid b held)

theorem grows_keep {r : Registry} {nsid : String} (fresh : r.bundles.find? nsid = none)
    (made : Except Fault Bundle) : r.Grows (r.keep nsid made) := by
  cases made with
  | error e => exact .refl r
  | ok b =>
    intro other held h
    have hne : ¬ nsid = other := by
      rintro rfl
      simp [fresh] at h
    simp [keep, Entries.find?_insert, hne, h]

variable (env env' : Surroundings)

theorem grows_asked (r : Registry) (nsid : String) : r.Grows (r.asked env nsid) := by
  unfold asked
  split
  · exact .refl r
  · next fresh => exact grows_keep fresh _

/-- An identifier that was answered is held from then on. -/
theorem find?_asked {r : Registry} {nsid : String} {b : Bundle} (h : r.found env nsid = .ok b) :
    (r.asked env nsid).bundles.find? nsid = some b := by
  unfold found at h
  unfold asked
  split at h
  · next held hheld => rw [hheld, Except.ok.inj h]
  · simp [h, keep, Entries.find?_insert]

/-! ### Running again -/

/-- Two checks in registries: the first one only lets the registry grow, and where it ends with a
result or a failure the second one does so too, from any store whose registry has grown further, and
leaves that store as it is. -/
def rerunning : Check.Congruence Store Store where
  rel x y := ∀ s : Store, s.registry.Grows (x.run s).2.registry ∧
    (Settled (x.run s).1 → ∀ s' : Store, (x.run s).2.registry.Grows s'.registry →
      y.run s' = ((x.run s).1, s'))
  rel_pure _ s := ⟨.refl _, fun _ _ _ => rfl⟩
  rel_throw _ s := ⟨.refl _, fun _ _ _ => rfl⟩
  rel_bind {_ _ x y f g} hxy hfg s := by
    obtain ⟨grows, again⟩ := hxy s
    rw [Check.run_bind]
    generalize x.run s = result at grows again ⊢
    rcases result with ⟨e | a, s₁⟩
    · refine ⟨grows, fun settled s' further => ?_⟩
      rw [Check.run_bind, again
        (fun e' h => settled e' (congrArg Except.error (Except.error.inj h))) s' further]
    · obtain ⟨grows', again'⟩ := hfg a s₁
      refine ⟨grows.trans grows', fun settled s' further => ?_⟩
      rw [Check.run_bind, again (Settled.ok _) s' (grows'.trans further)]
      exact again' settled s' further
  rel_attempt {_ x y} hxy s := by
    obtain ⟨grows, again⟩ := hxy s
    rw [Check.run_attempt]
    generalize x.run s = result at grows again ⊢
    rcases result with ⟨e | a, s₁⟩
    · cases e with
      | invalid f =>
        refine ⟨grows, fun _ s' further => ?_⟩
        rw [Check.run_attempt, again (fun _ h => ⟨f, (Except.error.inj h).symm⟩) s' further]
      | _ =>
        refine ⟨grows, fun settled => ?_⟩
        obtain ⟨f, hf⟩ := settled _ rfl
        cases hf
    · refine ⟨grows, fun _ s' further => ?_⟩
      rw [Check.run_attempt, again (Settled.ok _) s' further]

/-! ### Following references again -/

theorem noFailure_found (r : Registry) (nsid : String) : NoFailure (r.found env nsid) := by
  have loaded (sources : List Source) : NoFailure (r.loaded env nsid sources) := by
    induction sources with
    | nil => simp [Registry.loaded, NoFailure]
    | cons source rest ih =>
      refine (NoFailure.load env nsid source).bind fun document => ?_
      cases document with
      | none => exact ih
      | some d => exact (NoFailure.decideStrict _ _).bind fun _ => NoFailure.compile _ _ _ _
  unfold found
  split
  · exact .ok _
  · exact loaded _

theorem noFailure_meaning (r : Registry) (target : Reference) :
    NoFailure (r.meaning env target) := by
  refine (noFailure_found env r target.nsid).bind fun b => ?_
  unfold Bundle.definition
  split <;> simp [NoFailure]

theorem rel_definition (target : Reference) :
    (rerunning).rel (definition env target) (definition env' target) := by
  intro s
  obtain ⟨outcome, registry⟩ := run_definition env target s
  refine ⟨registry ▸ grows_asked env _ _, fun settled s' further => ?_⟩
  rw [outcome] at settled ⊢
  rw [registry] at further
  cases hmeaning : Lookup.ofBundles (s.registry.found env) target with
  | error e =>
    obtain ⟨f, rfl⟩ := settled e hmeaning
    exact absurd hmeaning (noFailure_meaning env s.registry target f)
  | ok d =>
    obtain ⟨b, hb, hd⟩ := Except.bind_eq_ok_iff.mp hmeaning
    have held := further _ _ (find?_asked env hb)
    simp only [definition, bundle, Check.run_bind, Action.run_registry, held, Check.run_pure,
      Action.run_lift, hd]

theorem rel_follow_again (steps : Nat) (target : Reference) (v : Value) (path : Path) :
    rerunning.rel (follow env steps target v path) (follow env' steps target v path) :=
  rerunning.rel_follow (follows env) (follows env') (rel_definition env env') steps target v path

/-- A verdict is given again in any registry that has grown further, which is left as it is. -/
theorem fst_run_verdict_again {schema : Schema} {v : Value} {s s' : Store}
    {verdict : Schema.Verdict} (h : ((Registry.verdict env schema v).run s).1 = .ok verdict)
    (further : ((Registry.verdict env schema v).run s).2.registry.Grows s'.registry) :
    ((Registry.verdict env' schema v).run s').1 = .ok verdict := by
  have again := rerunning.rel_attempt (rerunning.rel_checkWith_of_rel
    (rel_follow_again env env' (s.registry.stepBound env v)) schema v [])
  simp only [Registry.verdict, Schema.verdict, Check.run_bind, Action.run_registry] at h further
  have rerun := congrArg Prod.fst ((again s).2 (by simp [h]) s' further)
  rw [((answering env' (s'.registry.found env')).rel_attempt
    (rel_checkWith_follow env' s'.registry (s.registry.stepBound env v) schema v []) s' rfl).1,
    outcome_attempt_eq_verdictOf, h] at rerun
  rw [fst_run_verdict,
    normalized_eq env' (Nat.le_max_right (s.registry.stepBound env v) _) schema [],
    Lookup.outcome_checkWith_of_le _ (Nat.le_max_left _ _), rerun]
  intro endless
  simp [endless, verdictOf] at rerun

/-! ### Calls -/

/-- A call on a registry. -/
inductive Call
  | register (d : Document)
  | get (nsid : String)
  | schema (nsid fragment : String)
  | resolve (text : String) (base : Option String)
  | validate (text : String) (v : Value)
  | addSource (source : Source)

/-- What a call does, apart from its result. -/
def Call.perform (env : Surroundings) : Call → Action Unit
  | .register d => do let _ ← Registry.register env d
  | .get nsid => do let _ ← bundle env nsid
  | .schema nsid fragment => do let _ ← definition env ⟨nsid, fragment⟩
  | .resolve text base => do let _ ← Registry.resolve env text base
  | .validate text v => do let _ ← Registry.validate env text v
  | .addSource source => do let _ ← Registry.addSource source

/-- The store after calls, each made in surroundings of its own; a call may end with a fault. -/
def after (calls : List (Surroundings × Call)) (s : Store) : Store :=
  calls.foldl (fun s c => ((c.2.perform c.1).run s).2) s

theorem run_discard {α : Type} (x : Action α) (s : Store) :
    ((do let _ ← x : Action Unit).run s).2 = (x.run s).2 := by
  rw [Check.run_bind]
  rcases x.run s with ⟨_ | _, _⟩ <;> rfl

theorem grows_verdict (schema : Schema) (v : Value) (s : Store) :
    s.registry.Grows ((Registry.verdict env schema v).run s).2.registry := by
  simp only [Registry.verdict, Check.run_bind, Action.run_registry]
  exact (rerunning.rel_attempt
    (rerunning.rel_checkWith_of_rel (rel_follow_again env env _) schema v []) s).1

theorem grows_resolve (text : String) (base : Option String) (s : Store) :
    s.registry.Grows ((Registry.resolve env text base).run s).2.registry :=
  (rerunning.rel_bind (rerunning.rel_lift (Reference.read text base))
    (fun target => rel_definition env env target) s).1

theorem grows_validate (text : String) (v : Value) (s : Store) :
    s.registry.Grows ((Registry.validate env text v).run s).2.registry := by
  have resolved := grows_resolve env text none s
  simp only [Registry.validate, Check.run_bind]
  generalize (Registry.resolve env text none).run s = result at resolved ⊢
  rcases result with ⟨e | d, s₁⟩
  · exact resolved
  · exact resolved.trans (grows_verdict env d.schema v s₁)

/-- No call makes a registry forget anything. -/
theorem grows_perform (call : Call) (s : Store) :
    s.registry.Grows ((call.perform env).run s).2.registry := by
  cases call with
  | register d =>
    rw [Call.perform, run_discard]
    simp only [register, Check.run_bind, Action.run_registry]
    split
    · split_ifs <;> exact .refl _
    · next fresh =>
      rw [(run_add env d.id d s).2]
      exact grows_keep fresh _
  | get nsid =>
    rw [Call.perform, run_discard, (run_bundle env nsid s).2]
    exact grows_asked env _ nsid
  | schema nsid fragment =>
    rw [Call.perform, run_discard, (run_definition env ⟨nsid, fragment⟩ s).2]
    exact grows_asked env _ nsid
  | resolve text base =>
    rw [Call.perform, run_discard]
    exact grows_resolve env text base s
  | validate text v =>
    rw [Call.perform, run_discard]
    exact grows_validate env text v s
  | addSource source =>
    rw [Call.perform, run_discard]
    exact fun _ _ h => h

theorem grows_after (calls : List (Surroundings × Call)) (s : Store) :
    s.registry.Grows (after calls s).registry := by
  induction calls generalizing s with
  | nil => exact .refl _
  | cons call rest ih => exact (grows_perform call.1 call.2 s).trans (ih _)

end Registry

/-! ### References on the way -/

/-- Follows references as they lead on, and notes each of them. -/
def Lookup.tracking (look : Lookup) :
    Nat → Reference → Value → Path → Check (List Reference) Value
  | 0, _, _, _ => throw .endless
  | steps + 1, target, v, path => do
    modify (· ++ [target])
    let definition ← liftM (look target)
    definition.schema.checkWith (tracking look steps) v path

/-- A check that notes references and one that does not: they have one outcome, and if this is a
result or a failure, each reference that was noted leads somewhere. -/
def Check.tracked (look : Lookup) : Check.Congruence (List Reference) Unit where
  rel x y := ∀ noted, (x.run noted).1 = y.outcome ∧ (Registry.Settled y.outcome →
    ∀ t ∈ (x.run noted).2, t ∈ noted ∨ ∃ d, look t = .ok d)
  rel_pure _ _ := ⟨rfl, fun _ _ h => .inl h⟩
  rel_throw _ _ := ⟨rfl, fun _ _ h => .inl h⟩
  rel_bind {_ _ x y f g} hxy hfg noted := by
    obtain ⟨outcome, lead⟩ := hxy noted
    rw [Check.run_bind, Check.outcome_bind]
    generalize x.run noted = result at outcome lead ⊢
    generalize y.outcome = outcome' at outcome lead ⊢
    subst outcome
    rcases result with ⟨e | a, noted'⟩
    · refine ⟨rfl, fun settled => lead fun e' h => ?_⟩
      exact settled e' (congrArg Except.error (Except.error.inj h))
    · obtain ⟨outcome', lead'⟩ := hfg a noted'
      refine ⟨outcome', fun settled t ht => ?_⟩
      rcases lead' settled t ht with ht | hd
      · exact lead (Registry.Settled.ok _) t ht
      · exact .inr hd
  rel_attempt {_ x y} hxy noted := by
    obtain ⟨outcome, lead⟩ := hxy noted
    rw [Check.run_attempt, Check.outcome_attempt]
    generalize x.run noted = result at outcome lead ⊢
    generalize y.outcome = outcome' at outcome lead ⊢
    subst outcome
    rcases result with ⟨e | a, noted'⟩
    · cases e with
      | invalid f => exact ⟨rfl, fun _ => lead fun e h => ⟨f, (Except.error.inj h).symm⟩⟩
      | _ =>
        refine ⟨rfl, fun settled => ?_⟩
        obtain ⟨f, hf⟩ := settled _ rfl
        cases hf
    · exact ⟨rfl, fun _ => lead (Registry.Settled.ok _)⟩

theorem Lookup.rel_tracking {look : Lookup} (proper : ∀ t, NoFailure (look t)) (steps : Nat)
    (target : Reference) (v : Value) (path : Path) :
    (Check.tracked look).rel (look.tracking steps target v path)
      (look.follow steps target v path) := by
  have noting : Check.Follows (fun target => do modify (· ++ [target]); liftM (look target))
      look.tracking := ⟨fun _ _ _ => rfl, fun _ _ _ _ => (bind_assoc _ _ _).symm⟩
  refine (Check.tracked look).rel_follow noting look.follows (fun next noted => ?_) steps target v
    path
  refine ⟨rfl, fun settled t ht => ?_⟩
  change t ∈ noted ++ [next] at ht
  rcases List.mem_append.mp ht with ht | ht
  · exact .inl ht
  · rw [List.mem_singleton.mp ht]
    cases hlook : look next with
    | ok d => exact .inr ⟨d, rfl⟩
    | error e =>
      obtain ⟨f, rfl⟩ := settled e hlook
      exact absurd hlook (proper next f)

namespace Registry

variable {env : Surroundings}

/-- What a validation that gives a verdict consists of. -/
private theorem exists_of_validate {text : String} {v : Value} {s : Store}
    {verdict : Schema.Verdict} (h : ((validate env text v).run s).1 = .ok verdict) :
    ∃ target d s₁, Reference.read text none = .ok target ∧
      (definition env target).run s = (.ok d, s₁) ∧
      ((Registry.verdict env d.schema v).run s₁).1 = .ok verdict ∧
      ((validate env text v).run s).2 = ((Registry.verdict env d.schema v).run s₁).2 := by
  simp only [validate, resolve, Check.run_bind, Action.run_lift] at h ⊢
  cases hread : Reference.read text none with
  | error e => simp [hread] at h
  | ok target =>
    simp only [hread] at h ⊢
    rcases hdefinition : (definition env target).run s with ⟨e | d, s₁⟩
    · simp [hdefinition] at h
    · simp only [hdefinition] at h ⊢
      exact ⟨target, d, s₁, rfl, hdefinition, h, rfl⟩

/-- Once the validation of a value has ended with a result or a failure, it ends with the same one
after any calls, and on the way to it no reference was followed that leads nowhere, not even in an
alternative that failed. -/
theorem validate_stable {text : String} {v : Value} {s : Store} {verdict : Schema.Verdict}
    (h : ((validate env text v).run s).1 = .ok verdict) :
    (∀ (env' : Surroundings) (calls : List (Surroundings × Call)),
      ((validate env' text v).run (after calls ((validate env text v).run s).2)).1 =
        .ok verdict) ∧
    ∃ target d followed, Reference.read text none = .ok target ∧
      s.registry.meaning env target = .ok d ∧
      (d.schema.verdict ((s.registry.meaning env).tracking (s.registry.stepBound env v)) v).run [] =
        (.ok verdict, followed) ∧
      ∀ t ∈ followed, ∃ d', s.registry.meaning env t = .ok d' := by
  obtain ⟨target, d, s₁, hread, hdefinition, hverdict, hfinal⟩ := exists_of_validate h
  constructor
  · intro env' calls
    have further := grows_after calls ((validate env text v).run s).2
    rw [hfinal] at further ⊢
    have definition_again := (rel_definition env env' target s).2
    rw [hdefinition] at definition_again
    have resolved := definition_again (Settled.ok _) _
      ((grows_verdict env d.schema v s₁).trans further)
    simp only [validate, resolve, Check.run_bind, Action.run_lift, hread, resolved]
    exact fst_run_verdict_again env env' hverdict further
  · obtain ⟨outcome, registry⟩ := run_definition env target s
    rw [hdefinition] at outcome registry
    have answers : s.registry.meaning env = s₁.registry.meaning env := by
      rw [meaning, meaning, registry, found_asked]
    rw [fst_run_verdict, ← normalized_congr env answers] at hverdict
    obtain ⟨noted, lead⟩ := (Check.tracked (s.registry.meaning env)).rel_attempt
      ((Check.tracked (s.registry.meaning env)).rel_checkWith d.schema v []
        (fun t => Lookup.rel_tracking (noFailure_meaning env s.registry)
          (s.registry.stepBound env v) t v [])
        fun v' _ t p => Lookup.rel_tracking (noFailure_meaning env s.registry) _ t v' p) []
    rw [outcome_attempt_eq_verdictOf] at noted lead
    refine ⟨target, d, _, hread, outcome.symm, Prod.ext (noted.trans hverdict) rfl, fun t ht => ?_⟩
    have settled : Settled (verdictOf (s.registry.normalized env d.schema v [])) :=
      hverdict ▸ Settled.ok _
    exact (lead settled t ht).resolve_left (by simp)

/-- A registry that loads a token when it is first asked for it. -/
theorem validate_stable_token :
    let d : Document := ⟨"com.example.token", [("main", .token .null)], .int 1, .null, .null, .null⟩
    let s : Store := ⟨{ id := 0, sources := [.documents [d]], strict := some false }, []⟩
    ∃ verdict, ((validate {} "com.example.token" (.str "x")).run s).1 = .ok verdict ∧
      ∀ (env' : Surroundings) (calls : List (Surroundings × Call)),
        ((validate env' "com.example.token" (.str "x")).run
          (after calls ((validate {} "com.example.token" (.str "x")).run s).2)).1 = .ok verdict := by
  intro d s
  obtain ⟨verdict, h⟩ : ∃ verdict,
      ((validate {} "com.example.token" (.str "x")).run s).1 = .ok verdict :=
    Except.exists_of_isOk (by decide +kernel)
  exact ⟨verdict, h, (validate_stable h).1⟩

end Registry

end Lexicon
