import Lexicon.Proofs.Registry.Stability

/-!
# Loading on demand

Whether documents are registered beforehand or loaded when they are first asked for makes no
difference to what references lead to. Main statement: a registry in which documents were
registered, in any order, and one whose only source supplies them give the same verdicts, whatever
was looked up before.
-/

namespace Lexicon

/-- All definitions of a document compile, as strictly as is asked for. -/
def Document.Compilable (env : Surroundings) (strict : Option Bool) (d : Document) : Prop :=
  ∃ decided definitions, Registry.decideStrict env strict = .ok decided ∧
    (d.compileAll decided).outcome = .ok definitions

/-- What a definition of a document compiles to. -/
def Document.answer (env : Surroundings) (strict : Option Bool) (d : Document) (key : String) :
    Except Fault CompiledDefinition := do
  let decided ← Registry.decideStrict env strict
  let definitions ← (d.compileAll decided).outcome
  match definitions.find? key with
  | some c => .ok c
  | none => .error (.unresolved d.id key definitions.keys)

/-- What references lead to among documents. -/
def Lookup.ofDocuments (env : Surroundings) (strict : Option Bool) (ds : List Document) : Lookup :=
  fun target =>
    match ds.find? (·.id == target.nsid) with
    | some d => d.answer env strict target.fragment
    | none => .error (.unresolved target.nsid mainKey [])

namespace Registry

variable (env : Surroundings)

theorem compiled_eq (r : Registry) (nsid : String) (d : Document) :
    r.compiled env nsid d = do
      let decided ← decideStrict env r.strict
      let definitions ← (d.compileAll decided).outcome
      return { id := .registered r.id nsid, document := d, definitions, registry := r.id } := by
  simp only [compiled, Document.compile, Traced.outcome_operation, Traced.outcome_bind]
  rfl

theorem definition_of_compiled (r : Registry) (nsid : String) (d : Document) (key : String) :
    (do (← r.compiled env nsid d).definition key) = d.answer env r.strict key := by
  rw [compiled_eq, Document.answer]
  cases decideStrict env r.strict with
  | error e => rfl
  | ok decided =>
    simp only [Except.ok_bind]
    cases (d.compileAll decided).outcome <;> rfl

/-! ### Loaded on demand -/

/-- A registry without bundles whose only source supplies given documents. -/
theorem meaning_of_source {r : Registry} {source : Source} {ds : List Document}
    (hbundles : r.bundles = []) (hsources : r.sources = [source])
    (hsource : ∀ nsid, source.load env nsid = .ok (ds.find? (·.id == nsid))) :
    r.meaning env = Lookup.ofDocuments env r.strict ds := by
  funext target
  simp only [meaning, Lookup.ofBundles, found, hbundles, hsources, Entries.find?, loaded, hsource,
    Except.ok_bind, Lookup.ofDocuments]
  cases ds.find? (·.id == target.nsid) with
  | none => rfl
  | some d => exact definition_of_compiled env r target.nsid d target.fragment

/-- Whether a call only looks something up. -/
def Call.isLookup : Call → Bool
  | .get _ | .schema _ _ | .resolve _ _ | .validate _ _ => true
  | .register _ | .addSource _ => false

theorem found_of_verdict (schema : Schema) (v : Value) (s : Store) :
    ((Registry.verdict env schema v).run s).2.registry.found env = s.registry.found env :=
  (run_verdict env schema v s).2

theorem found_of_definition (target : Reference) (s : Store) :
    ((definition env target).run s).2.registry.found env = s.registry.found env := by
  rw [(run_definition env target s).2, found_asked]

theorem found_of_resolve (text : String) (base : Option String) (s : Store) :
    ((Registry.resolve env text base).run s).2.registry.found env = s.registry.found env := by
  simp only [Registry.resolve, Check.run_bind, Action.run_lift]
  cases Reference.read text base with
  | error e => rfl
  | ok target => exact found_of_definition env target s

/-- Looking something up changes no answer. -/
theorem found_of_lookup {call : Call} (h : call.isLookup = true) (s : Store) :
    ((call.perform env).run s).2.registry.found env = s.registry.found env := by
  cases call with
  | register d | addSource source => simp [Call.isLookup] at h
  | get nsid => rw [Call.perform, run_discard, (run_bundle env nsid s).2, found_asked]
  | schema nsid fragment =>
    rw [Call.perform, run_discard, found_of_definition]
  | resolve text base =>
    rw [Call.perform, run_discard, found_of_resolve]
  | validate text v =>
    rw [Call.perform, run_discard]
    have resolved := found_of_resolve env text none s
    simp only [Registry.validate, Check.run_bind]
    generalize (Registry.resolve env text none).run s = result at resolved ⊢
    rcases result with ⟨e | d, s₁⟩
    · exact resolved
    · exact (found_of_verdict env d.schema v s₁).trans resolved

theorem found_after_lookups {lookups : List Call} (h : ∀ call ∈ lookups, call.isLookup = true)
    (s : Store) :
    (after (lookups.map (env, ·)) s).registry.found env = s.registry.found env := by
  induction lookups generalizing s with
  | nil => rfl
  | cons call rest ih =>
    refine (ih (fun c hc => h c (List.mem_cons_of_mem _ hc)) _).trans ?_
    exact found_of_lookup env (h call List.mem_cons_self) s

/-! ### Registered beforehand -/

/-- A registry without sources that holds exactly what given documents compile to. -/
structure HoldsExactly (strict : Option Bool) (ds : List Document) (r : Registry) : Prop where
  sources : r.sources = []
  strict_eq : r.strict = strict
  bundles : List.Forall₂ (fun d e => e.1 = d.id ∧ r.compiled env d.id d = .ok e.2) ds r.bundles

variable {env} {strict : Option Bool}

theorem find?_of_forall₂ {r : Registry} {ds : List Document} {bundles : Entries Bundle}
    (h : List.Forall₂ (fun d e => e.1 = d.id ∧ r.compiled env d.id d = .ok e.2) ds bundles)
    (nsid : String) :
    (ds.find? (·.id == nsid) = none ∧ bundles.find? nsid = none) ∨
      ∃ d b, ds.find? (·.id == nsid) = some d ∧ bundles.find? nsid = some b ∧
        r.compiled env d.id d = .ok b := by
  induction h with
  | nil => exact .inl ⟨rfl, rfl⟩
  | @cons d e ds bundles hd _ ih =>
    by_cases hid : d.id = nsid
    · exact .inr ⟨d, e.2, by simp [hid], by simp [Entries.find?, hd.1, hid], hd.2⟩
    · simpa [Entries.find?, hd.1, hid] using ih

theorem HoldsExactly.meaning_eq {ds : List Document} {r : Registry}
    (h : HoldsExactly env strict ds r) : r.meaning env = Lookup.ofDocuments env strict ds := by
  funext target
  unfold Registry.meaning Lookup.ofBundles found Lookup.ofDocuments
  rcases find?_of_forall₂ h.bundles target.nsid with ⟨hd, hb⟩ | ⟨d, b, hd, hb, hcompiled⟩
  · simp only [hd, hb, h.sources]
    rfl
  · have := definition_of_compiled env r d.id d target.fragment
    simp only [hcompiled, Except.ok_bind, h.strict_eq] at this
    simp only [hd, hb, Except.ok_bind, this]

theorem HoldsExactly.register {ds : List Document} {s : Store}
    (h : HoldsExactly env strict ds s.registry) {d : Document} (fresh : d.id ∉ ds.map (·.id))
    (compilable : d.Compilable env strict) :
    HoldsExactly env strict (ds ++ [d]) (((Call.register d).perform env).run s).2.registry := by
  obtain ⟨decided, definitions, hdecided, hdefinitions⟩ := compilable
  have none_found : s.registry.bundles.find? d.id = none := by
    rcases find?_of_forall₂ h.bundles d.id with ⟨-, hb⟩ | ⟨d', b, hd', -, -⟩
    · exact hb
    · have hid : d'.id = d.id := by simpa using List.find?_some hd'
      exact absurd (List.mem_map.mpr ⟨d', List.mem_of_find?_eq_some hd', hid⟩) fresh
  obtain ⟨b, hb⟩ : ∃ b, s.registry.compiled env d.id d = .ok b := by
    rw [compiled_eq, h.strict_eq, hdecided, Except.ok_bind, hdefinitions]
    exact ⟨_, rfl⟩
  have registry : (((Call.register d).perform env).run s).2.registry =
      { s.registry with bundles := s.registry.bundles ++ [(d.id, b)] } := by
    rw [Call.perform, run_discard]
    simp only [Registry.register, Check.run_bind, Action.run_registry, none_found]
    rw [(run_add env d.id d s).2, hb, keep, Entries.insert_of_find?_eq_none none_found]
  rw [registry]
  exact ⟨h.sources, h.strict_eq, List.rel_append h.bundles (.cons ⟨rfl, hb⟩ .nil)⟩

theorem holdsExactly_after_register (ds done : List Document) {s : Store}
    (h : HoldsExactly env strict done s.registry) (distinct : ((done ++ ds).map (·.id)).Nodup)
    (compilable : ∀ d ∈ ds, d.Compilable env strict) :
    HoldsExactly env strict (done ++ ds)
      (after (ds.map fun d => (env, .register d)) s).registry := by
  induction ds generalizing done s with
  | nil => simpa [after] using h
  | cons d rest ih =>
    have fresh : d.id ∉ done.map (·.id) := by
      simp only [List.map_append, List.map_cons, List.nodup_append, List.mem_cons] at distinct
      exact fun hmem => distinct.2.2 _ hmem _ (.inl rfl) rfl
    have first := h.register fresh (compilable d List.mem_cons_self)
    have := ih _ first (by simpa using distinct) fun d' hd' =>
      compilable d' (List.mem_cons_of_mem _ hd')
    rwa [List.append_assoc] at this

private theorem find?_of_perm {ds ds' : List Document} (distinct : (ds.map (·.id)).Nodup)
    (order : ds'.Perm ds) (nsid : String) :
    ds'.find? (·.id == nsid) = ds.find? (·.id == nsid) := by
  have unique {xs : List Document} (hxs : (xs.map (·.id)).Nodup) {d : Document} (hd : d ∈ xs) :
      xs.find? (·.id == d.id) = some d := by
    induction xs with
    | nil => simp at hd
    | cons x xs ih =>
      obtain ⟨fresh, hxs⟩ := List.nodup_cons.mp hxs
      rcases List.mem_cons.mp hd with rfl | hd
      · simp
      · have hne : ¬ x.id = d.id := fun h => fresh (List.mem_map.mpr ⟨d, hd, h.symm⟩)
        simpa [hne] using ih hxs hd
  cases hfind : ds.find? (·.id == nsid) with
  | none =>
    rw [List.find?_eq_none] at hfind ⊢
    exact fun d hd => hfind d (order.mem_iff.mp hd)
  | some d =>
    have hid : d.id = nsid := by simpa using List.find?_some hfind
    subst hid
    exact unique ((order.map _).nodup_iff.mpr distinct)
      (order.mem_iff.mpr (List.mem_of_find?_eq_some hfind))

/-- The outcome of a validation: the reference is read, its definition is found, and the value is
checked by that. -/
theorem fst_run_validate (env : Surroundings) (text : String) (v : Value) (s : Store) :
    ((Registry.validate env text v).run s).1 = (do
      let target ← Reference.read text none
      let d ← s.registry.meaning env target
      verdictOf (s.registry.normalized env d.schema v [])) := by
  simp only [Registry.validate, Registry.resolve, Check.run_bind, Action.run_lift]
  cases Reference.read text none with
  | error e => rfl
  | ok target =>
    obtain ⟨outcome, -⟩ := run_definition env target s
    have answers := found_of_definition env target s
    rw [Except.ok_bind, meaning, ← outcome]
    dsimp only
    generalize (definition env target).run s = result at answers ⊢
    rcases result with ⟨e | d, s₁⟩
    · rfl
    · have same : s.registry.meaning env = s₁.registry.meaning env := by
        rw [meaning, meaning, answers]
      rw [Except.ok_bind, normalized_congr env same]
      exact fst_run_verdict env d.schema v s₁

/-- The outcome of a validation depends on the answers of the registry alone. -/
theorem fst_run_validate_congr {env : Surroundings} {s s' : Store}
    (h : s'.registry.meaning env = s.registry.meaning env) (text : String) (v : Value) :
    ((Registry.validate env text v).run s').1 = ((Registry.validate env text v).run s).1 := by
  simp only [fst_run_validate, h, normalized_congr env h]

/-- Documents that are registered in any order and documents that are loaded on demand give the
same verdicts, the same failures and the same faults, whatever was looked up before. -/
theorem validate_registered_eq_loaded {ds ds' : List Document}
    (distinct : (ds.map (·.id)).Nodup) (order : ds'.Perm ds)
    (compilable : ∀ d ∈ ds, d.Compilable env strict) {source : Source}
    (supplies : ∀ nsid, source.load env nsid = .ok (ds.find? (·.id == nsid)))
    {lookups : List Call} (only : ∀ call ∈ lookups, call.isLookup = true) (id id' : Nat)
    (log log' : List Event) (text : String) (v : Value) :
    ((Registry.validate env text v).run
        (after (ds'.map fun d => (env, .register d)) ⟨{ id, sources := [], strict }, log⟩)).1 =
      ((Registry.validate env text v).run
        (after (lookups.map (env, ·)) ⟨{ id := id', sources := [source], strict }, log'⟩)).1 := by
  refine fst_run_validate_congr ?_ text v
  have registered := holdsExactly_after_register ds' []
    (s := ⟨{ id, sources := [], strict }, log⟩) ⟨rfl, rfl, .nil⟩
    ((order.map _).nodup_iff.mpr distinct) fun d hd => compilable d (order.mem_iff.mp hd)
  have loaded := meaning_of_source env (r := { id := id', sources := [source], strict }) rfl rfl
    supplies
  rw [registered.meaning_eq, meaning, found_after_lookups env only]
  refine Eq.trans ?_ loaded.symm
  funext target
  rw [List.nil_append, Lookup.ofDocuments, Lookup.ofDocuments, find?_of_perm distinct order]

/-- A token and a reference to it, registered with the reference first, and loaded after the token
was asked for. -/
theorem validate_registered_eq_loaded_token :
    let token : Document := ⟨"com.example.token", [("main", .token .null)], .int 1, .null, .null,
      .null⟩
    let thing : Document := ⟨"com.example.thing",
      [("main", .field { type := .str "ref", options := [("ref", .str "com.example.token")] })],
      .int 1, .null, .null, .null⟩
    ((Registry.validate {} "com.example.thing" (.str "x")).run
        (after ([thing, token].map fun d => ({}, .register d))
          ⟨{ id := 0, sources := [], strict := some true }, []⟩)).1 =
      ((Registry.validate {} "com.example.thing" (.str "x")).run
        (after ([.get "com.example.token"].map ({}, ·))
          ⟨{ id := 1, sources := [.documents [token, thing]], strict := some true }, []⟩)).1 := by
  intro token thing
  refine validate_registered_eq_loaded (by decide) (.swap _ _ _) (fun d hd => ?_) (fun _ => rfl)
    (by simp [Call.isLookup]) 0 1 [] [] _ _
  obtain ⟨definitions, hdefinitions⟩ :
      ∃ definitions, (d.compileAll true).outcome = .ok definitions := by
    rcases List.mem_cons.mp hd with rfl | hd
    · exact Except.exists_of_isOk (by decide +kernel)
    · rw [List.mem_singleton.mp hd]
      exact Except.exists_of_isOk (by decide +kernel)
  exact ⟨true, definitions, rfl, hdefinitions⟩

end Registry

end Lexicon
