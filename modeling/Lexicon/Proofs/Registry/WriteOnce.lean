import Lexicon.Proofs.Registry.Sound
import Mathlib.Logic.Relation

/-!
# Write-once registries

There are two ways in which a registry gets a bundle: a document is registered, or it is loaded when
its identifier is first asked for. Both compile a document under its own identifier, and add what it
compiles to only where nothing was held. Main statement: after any calls on a registry that began
empty, each identifier stands for a bundle of its own document and keeps it, a document can be
registered again exactly where it is equal to the one that is held, and a call that ends with a
fault has changed nothing.
-/

namespace Lexicon.Registry

variable {env : Surroundings} {r r' : Registry}

/-- One change of a registry: a bundle for an identifier that had none, made of a document with that
identifier, or a source after the others. -/
inductive Change (env : Surroundings) (r : Registry) : Registry → Prop
  | bundle {nsid : String} {d : Document} {b : Bundle} (fresh : r.bundles.find? nsid = none)
      (own : d.id = nsid) (made : r.compiled env nsid d = .ok b) :
      Change env r { r with bundles := r.bundles.insert nsid b }
  | source (source : Source) : Change env r { r with sources := r.sources ++ [source] }

/-- The second registry comes from the first one by changes, one after the other. -/
abbrev Changes (env : Surroundings) : Registry → Registry → Prop :=
  Relation.ReflTransGen (Change env)

/-! ### What an action changes -/

theorem changes_keep {nsid : String} {made : Except Fault Bundle}
    (fresh : r.bundles.find? nsid = none)
    (own : ∀ b, made = .ok b → ∃ d : Document, d.id = nsid ∧ r.compiled env nsid d = .ok b) :
    Changes env r (r.keep nsid made) := by
  cases made with
  | error e => exact .refl
  | ok b =>
    obtain ⟨d, hid, hmade⟩ := own b rfl
    exact .single (.bundle fresh hid hmade)

theorem changes_asked (r : Registry) (nsid : String) : Changes env r (r.asked env nsid) := by
  unfold asked
  split
  · exact .refl
  · next fresh => exact changes_keep fresh fun _ => exists_of_loaded

variable (env) in
/-- A check changes the registry in no other way, even where it ends with a fault. -/
def changing : Check.Congruence Store Store where
  rel x _ := ∀ s : Store, Changes env s.registry (x.run s).2.registry
  rel_pure _ _ := .refl
  rel_throw _ _ := .refl
  rel_bind {_ _ x _ _ _} hx hf s :=
    Check.run_bind_relates (fun s s' : Store => Changes env s.registry s'.registry) .trans (hx s) hf
  rel_attempt {_ x _} hx s := by
    rw [Check.snd_run_attempt]
    exact hx s

theorem changes_definition (target : Reference) :
    (changing env).rel (definition env target) (definition env target) := by
  intro s
  rw [(run_definition env target s).2]
  exact changes_asked s.registry target.nsid

theorem changes_follow (steps : Nat) (target : Reference) (v : Value) (path : Path) :
    (changing env).rel (follow env steps target v path) (follow env steps target v path) :=
  (changing env).rel_follow (follows env) (follows env) changes_definition steps target v path

theorem changes_resolve (text : String) (base : Option String) :
    (changing env).rel (Registry.resolve env text base) (Registry.resolve env text base) :=
  (changing env).rel_bind ((changing env).rel_lift (Reference.read text base)) changes_definition

theorem changes_verdict (schema : Schema) (v : Value) :
    (changing env).rel (Registry.verdict env schema v) (Registry.verdict env schema v) := by
  refine (changing env).rel_bind (fun _ => .refl) fun registry => ?_
  exact (changing env).rel_attempt
    ((changing env).rel_checkWith_of_rel (changes_follow _) schema v [])

theorem changes_register (d : Document) (s : Store) :
    Changes env s.registry ((Registry.register env d).run s).2.registry := by
  simp only [register, Check.run_bind, Action.run_registry]
  split
  · split_ifs <;> exact .refl
  · next fresh =>
    rw [(run_add env d.id d s).2]
    exact changes_keep fresh fun _ made => ⟨d, rfl, made⟩

/-- A call changes the registry step by step, whatever it ends with. -/
theorem changes_perform (call : Call) (s : Store) :
    Changes env s.registry ((call.perform env).run s).2.registry := by
  rw [Call.perform.eq_def]
  cases call with
  | register d =>
    rw [run_discard]
    exact changes_register d s
  | get nsid =>
    rw [run_discard, (run_bundle env nsid s).2]
    exact changes_asked s.registry nsid
  | schema nsid fragment =>
    rw [run_discard]
    exact changes_definition ⟨nsid, fragment⟩ s
  | resolve text base =>
    rw [run_discard]
    exact changes_resolve text base s
  | validate text v =>
    rw [run_discard]
    exact (changing env).rel_bind (changes_resolve text none)
      (fun d => changes_verdict d.schema v) s
  | addSource source =>
    rw [run_discard]
    exact .single (.source source)

/-! ### What every change keeps -/

/-- Each identifier stands for one bundle, and that is the bundle of a document with this
identifier. -/
structure Indexed (r : Registry) : Prop where
  distinct : r.bundles.keys.Nodup
  own : ∀ e ∈ r.bundles, e.2.document.id = e.1 ∧ e.2.id = .registered r.id e.1

theorem indexed_of_empty (h : r.bundles = []) : r.Indexed := by
  refine ⟨?_, ?_⟩ <;> simp [h, Entries.keys]

/-- A compiled bundle is that of its document, and known by the identifier it was made for. -/
theorem of_compiled {nsid : String} {d : Document} {b : Bundle}
    (made : r.compiled env nsid d = .ok b) :
    b.document = d ∧ b.id = .registered r.id nsid := by
  rw [compiled_eq] at made
  obtain ⟨strict, _, made⟩ := Except.bind_eq_ok_iff.mp made
  obtain ⟨definitions, _, made⟩ := Except.bind_eq_ok_iff.mp made
  rw [← Except.ok.inj made]
  exact ⟨rfl, rfl⟩

theorem Indexed.change (h : r.Indexed) (change : Change env r r') : r'.Indexed := by
  cases change with
  | source source => exact ⟨h.distinct, h.own⟩
  | @bundle nsid d b fresh own made =>
    obtain ⟨hdocument, hid⟩ := of_compiled made
    have appended : r.bundles.insert nsid b = r.bundles ++ [(nsid, b)] :=
      Entries.insert_of_find?_eq_none fresh b
    constructor
    · have unused : nsid ∉ r.bundles.keys := by
        rw [← Entries.has_eq_true_iff, Entries.has, fresh]
        simp
      rw [Entries.keys_insert, if_neg unused]
      exact h.distinct.append (List.nodup_singleton _) (by simpa using unused)
    · intro e he
      rw [appended] at he
      rcases List.mem_append.mp he with he | he
      · exact h.own e he
      · rw [List.mem_singleton.mp he, hdocument]
        exact ⟨own, hid⟩

theorem Indexed.changes (h : r.Indexed) (changes : Changes env r r') : r'.Indexed := by
  induction changes with
  | refl => exact h
  | tail _ change ih => exact ih.change change

theorem Indexed.after (calls : List (Surroundings × Call)) {s : Store}
    (h : s.registry.Indexed) : (Registry.after calls s).registry.Indexed := by
  induction calls generalizing s with
  | nil => exact h
  | cons call rest ih => exact ih (h.changes (changes_perform call.2 s))

/-! ### Calls that end with a fault -/

theorem keep_of_error {nsid : String} {e : Fault} {made : Except Fault Bundle}
    (h : made = .error e) : r.keep nsid made = r := by
  rw [h, keep]

theorem registry_of_register_error {d : Document} {s : Store} {e : Fault}
    (h : ((register env d).run s).1 = .error e) :
    ((register env d).run s).2.registry = s.registry := by
  simp only [register, Check.run_bind, Action.run_registry] at h ⊢
  split at h
  · split_ifs <;> rfl
  · obtain ⟨outcome, registry⟩ := run_add env d.id d s
    rw [registry]
    exact keep_of_error (outcome ▸ h)

theorem registry_of_bundle_error {nsid : String} {s : Store} {e : Fault}
    (h : ((bundle env nsid).run s).1 = .error e) :
    ((bundle env nsid).run s).2.registry = s.registry := by
  obtain ⟨outcome, registry⟩ := run_bundle env nsid s
  rw [outcome, found] at h
  rw [registry, asked]
  split at h
  · cases h
  · exact keep_of_error h

/-! ### Registering again -/

theorem run_register_of_same {d : Document} {s : Store} {b : Bundle}
    (held : s.registry.bundles.find? d.id = some b) (same : b.document.same d = true) :
    (register env d).run s = (.ok b, s) := by
  simp [register, Check.run_bind, held, same]

theorem run_register_of_other {d : Document} {s : Store} {b : Bundle}
    (held : s.registry.bundles.find? d.id = some b) (other : b.document.same d = false) :
    (register env d).run s = (.error (.compile ⟨some d.id, .otherDocument, none⟩), s) := by
  simp [register, Check.run_bind, held, other]

/-- After any calls on a registry that began empty: every identifier stands for the bundle of a
document with that identifier, and for the same one after any further calls; a document is answered
with the bundle that is held exactly where that is the bundle of an equal document, and is refused
where it is the bundle of a different one, in both cases without any change; and whatever else makes
`register` or `get` end with a fault, the registry is as it was. -/
theorem held_once {s : Store} (empty : s.registry.bundles = [])
    (calls : List (Surroundings × Call)) :
    (after calls s).registry.Indexed ∧
    (∀ more nsid b, (after calls s).registry.bundles.find? nsid = some b →
      (after more (after calls s)).registry.bundles.find? nsid = some b) ∧
    (∀ env d,
      ((∃ b, (after calls s).registry.bundles.find? d.id = some b ∧
          ((register env d).run (after calls s)).1 = .ok b) ↔
        ∃ b, (after calls s).registry.bundles.find? d.id = some b ∧ b.document.same d = true) ∧
      (∀ b, (after calls s).registry.bundles.find? d.id = some b → b.document.same d = true →
        (register env d).run (after calls s) = (.ok b, after calls s)) ∧
      (∀ b, (after calls s).registry.bundles.find? d.id = some b → b.document.same d = false →
        (register env d).run (after calls s) =
          (.error (.compile ⟨some d.id, .otherDocument, none⟩), after calls s))) ∧
    (∀ env d e, ((register env d).run (after calls s)).1 = .error e →
      ((register env d).run (after calls s)).2.registry = (after calls s).registry) ∧
    (∀ env nsid e, ((bundle env nsid).run (after calls s)).1 = .error e →
      ((bundle env nsid).run (after calls s)).2.registry = (after calls s).registry) := by
  refine ⟨(indexed_of_empty empty).after calls, fun more => grows_after more _, fun env d => ?_,
    fun env d e => registry_of_register_error, fun env nsid e => registry_of_bundle_error⟩
  refine ⟨⟨?_, ?_⟩, fun b => run_register_of_same, fun b => run_register_of_other⟩
  · rintro ⟨b, held, answered⟩
    refine ⟨b, held, ?_⟩
    by_contra other
    rw [run_register_of_other held (Bool.not_eq_true _ ▸ other)] at answered
    cases answered
  · rintro ⟨b, held, same⟩
    exact ⟨b, held, by rw [run_register_of_same held same]⟩

/-- A token that was loaded, and another document with its identifier. -/
theorem held_once_token :
    let token : Document := ⟨"com.example.token", [("main", .token .null)], .int 1, .null, .null,
      .null⟩
    let other : Document := { token with definitions := [("other", .token .null)] }
    let s : Store := ⟨{ id := 0, sources := [.documents [token]], strict := some false }, []⟩
    let s' := after [({}, .get "com.example.token"), ({}, .register other)] s
    s.registry.bundles = [] ∧ s'.registry.Indexed ∧
      ∃ b, s'.registry.bundles.find? "com.example.token" = some b ∧
        (register {} token).run s' = (.ok b, s') ∧
        (register {} other).run s' =
          (.error (.compile ⟨some "com.example.token", .otherDocument, none⟩), s') := by
  intro token other s s'
  obtain ⟨indexed, -, registered, -⟩ := held_once (s := s) rfl
    [({}, .get "com.example.token"), ({}, .register other)]
  have documents : (s'.registry.bundles.find? "com.example.token").map (fun b =>
      (b.document.same token, b.document.same other)) = some (true, false) := by decide +kernel
  obtain ⟨b, held, same⟩ := Option.map_eq_some_iff.mp documents
  refine ⟨rfl, indexed, b, held, ?_, ?_⟩
  · exact (registered {} token).2.1 b held (congrArg Prod.fst same)
  · exact (registered {} other).2.2 b held (congrArg Prod.snd same)

end Lexicon.Registry
