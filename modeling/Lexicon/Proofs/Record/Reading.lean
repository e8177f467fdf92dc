import Lexicon.Proofs.Record.RoundTrip
import Lexicon.Proofs.Registry.Verdict

/-!
# Reading records again

The class of a definition reads a record as a reference to the definition would be followed and
hydrated. Main statement: if all that a class leads to in a sound registry is regular, recursion
through references included, then what it reads from JSON is written as JSON, and it reads the same
record from that.
-/

namespace Lexicon

/-- A key of a faithful bundle has a class exactly if its compiled definition has a record type. -/
theorem Bundle.Faithful.binding?_eq_none_iff {nsid key : String} {b : Bundle} (h : b.Faithful nsid)
    {c : CompiledDefinition} (hc : b.definitions.find? key = some c) :
    b.binding? key = none ↔ c.recordType = none := by
  cases hbinding : b.binding? key with
  | some binding =>
    obtain ⟨c', t, hc', ht, _⟩ := h.binding hbinding
    obtain rfl := Option.some.inj (hc.symm.trans hc')
    simp [ht]
  | none =>
    unfold Bundle.binding? at hbinding
    split at hbinding
    · simp at hbinding
    · simpa [hc] using hbinding

namespace Registry

variable {env : Surroundings} {r : Registry}

theorem meaning_eq_ok_iff {target : Reference} {c : CompiledDefinition} :
    r.meaning env target = .ok c ↔
      ∃ b, r.found env target.nsid = .ok b ∧ b.definitions.find? target.fragment = some c := by
  rw [meaning, Lookup.ofBundles, Except.bind_eq_ok_iff]
  simp only [Bundle.definition_eq_ok_iff]

/-! ### Hydrating by references -/

section Hydrated

variable {target : Reference} {b : Bundle} {c : CompiledDefinition}
  (hb : r.found env target.nsid = .ok b) (hc : b.definitions.find? target.fragment = some c)

include hb hc

/-- A value stays as it is by a reference to a definition without a class. -/
theorem hydrated_of_unbound (unbound : b.binding? target.fragment = none) (m : Value) :
    m.hydrated (r.found env) (.ref target) = .ok m := by
  cases m with
  | object es =>
    rw [Value.hydrated_object]
    simp only [FieldType.core, FieldType.target?, hb, Bundle.definition_eq_ok_iff.mpr hc,
      Except.ok_bind, unbound]
  | list items => exact Value.hydrated_list _ items _
  | _ => exact Value.hydrated_of_plain _ (by simp) (by simp) _

/-- An object becomes a record by a reference to a definition with a class. -/
theorem hydrated_of_binding {binding : Binding}
    (hbinding : b.binding? target.fragment = some binding) (ms : Entries Value) :
    (Value.object ms).hydrated (r.found env) (.ref target) =
      binding.recordType.recordOf (r.found env) c.type ms (b.classId target.fragment binding) := by
  rw [Value.hydrated_object]
  simp only [FieldType.core, FieldType.target?, hb, Bundle.definition_eq_ok_iff.mpr hc,
    Except.ok_bind, hbinding]

end Hydrated

/-! ### Following references -/

section Follow

variable {known : Reference → Prop}

/-- A known reference leads to a definition whose shape is known. -/
private theorem Closed.shape (closed : r.Closed env known) (sound : r.Sound) {target : Reference}
    (h : known target) {c : CompiledDefinition} (hc : r.meaning env target = .ok c) :
    Definition.DefinitionShape known c := by
  obtain ⟨b, hb, hc⟩ := meaning_eq_ok_iff.mp hc
  have faithful := sound.found hb
  obtain ⟨strict, component, hmem, compiles⟩ := faithful.component hc
  obtain ⟨e, _, he⟩ := List.mem_flatMap.mp hmem
  obtain ⟨regular, refers⟩ := closed target h component ⟨b, hb, hmem⟩
  exact compiles.shape (faithful.id_eq ▸ Definition.made_of_mem_components he) regular refers

theorem outcome_follow_eq_ok_iff {look : Lookup} {n : Nat} {target : Reference} {v m : Value}
    {path : Path} :
    ((Schema.ref target).checkWith (look.follow (n + 1)) v path).outcome = .ok m ↔
      ∃ c, look target = .ok c ∧ (c.schema.checkWith (look.follow n) v path).outcome = .ok m := by
  rw [Schema.checkWith, Lookup.follow, Check.outcome_bind]
  exact Except.bind_eq_ok_iff

/-- What a known reference makes of what it wrote is the same value. -/
private theorem Closed.rereads (closed : r.Closed env known) (sound : r.Sound) (n : Nat)
    {target : Reference} (h : known target) :
    (Schema.ref target).Rereads ((r.meaning env).follow n) := by
  induction n generalizing target with
  | zero =>
    intro v m path _ hm
    cases hm
  | succ n ih =>
    intro v m path hv hm
    obtain ⟨c, hc, hm⟩ := outcome_follow_eq_ok_iff.mp hm
    refine outcome_follow_eq_ok_iff.mpr ⟨c, hc, ?_⟩
    cases closed.shape sound h hc with
    | value shape => exact shape.rereads (fun _ => ih) hv hm
    | object shape => exact shape.rereads (fun _ => ih) hv hm

/-- What is made of a value that a known reference checked is found again. -/
private theorem Closed.returns (closed : r.Closed env known) (sound : r.Sound) (n : Nat)
    {target : Reference} (h : known target) :
    (Schema.ref target).Returns ((r.meaning env).follow n)
      (·.hydrated (r.found env) (.ref target)) := by
  induction n generalizing target with
  | zero =>
    intro v m x path _ hm
    cases hm
  | succ n ih =>
    intro v m x path hv hm hx
    obtain ⟨c, hc, hm⟩ := outcome_follow_eq_ok_iff.mp hm
    obtain ⟨b, hb, hdefinition⟩ := meaning_eq_ok_iff.mp hc
    have faithful := sound.found hb
    simp only [outcome_follow_eq_ok_iff]
    cases closed.shape sound h hc with
    | value shape noRecord =>
      have plain := hydrated_of_unbound hb hdefinition
        ((faithful.binding?_eq_none_iff hdefinition).mpr noRecord)
      obtain rfl := Except.ok.inj ((plain m).symm.trans hx)
      have again := shape.rereads (fun _ => closed.rereads sound n) hv hm
      exact ⟨m, ⟨c, hc, again⟩, plain m⟩
    | @object properties typeName t shape record =>
      cases hbinding : b.binding? target.fragment with
      | none => simp [(faithful.binding?_eq_none_iff hdefinition).mp hbinding] at record
      | some binding =>
        obtain ⟨c', t', hc', ht', renamed⟩ := faithful.binding hbinding
        obtain rfl := Option.some.inj (hdefinition.symm.trans hc')
        obtain rfl := Option.some.inj (record.symm.trans ht')
        obtain ⟨ms, rfl⟩ := Schema.exists_entries (shape.schema_eq ▸ hm)
        simp only [hydrated_of_binding hb hdefinition hbinding] at hx ⊢
        rw [renamed] at hx
        obtain ⟨ms', hms', again⟩ :=
          (shape.rename binding.recordType.name).exists_record (fun _ => ih) hv hm hx
        refine ⟨.object ms', ⟨c, hc, hms'⟩, ?_⟩
        rw [hydrated_of_binding hb hdefinition hbinding, renamed]
        exact again

end Follow

/-! ### Reading in a registry -/

theorem gives_definition (env : Surroundings) (r : Registry) (target : Reference) :
    Action.Gives env (r.found env) (definition env target) (r.meaning env target) := by
  intro s hs
  obtain ⟨outcome, registry⟩ := run_definition env target s
  rw [outcome, registry, found_asked, hs]
  exact ⟨rfl, fun _ => Iff.rfl⟩

theorem gives_verdict (schema : Schema) (v : Value) :
    Action.Gives env (r.found env) (verdict env schema v)
      (verdictOf (r.normalized env schema v [])) := by
  intro s hs
  have same : s.registry.meaning env = r.meaning env := congrArg Lookup.ofBundles hs
  rw [fst_run_verdict, normalized_congr env same]
  exact ⟨(run_verdict env schema v s).2.trans hs, fun _ => Iff.rfl⟩

/-- Checking a value gives what the registry makes of it. -/
theorem gives_check (schema : Schema) (v : Value) :
    Action.Gives env (r.found env) (check env schema v) (r.normalized env schema v []) := by
  refine ((gives_verdict schema v).bind (g := Except.mapError .invalid) fun verdict _ => ?_).of_iff
    fun n => ?_
  · cases verdict with
    | ok n => exact .pure n
    | error f => exact .lift (.error (.invalid f))
  · cases r.normalized env schema v [] with
    | ok n => rfl
    | error e => cases e <;> simp [verdictOf, Except.mapError]

end Registry

theorem Definition.Component.Compiles.exists_fields {nsid key : String} {strict : Bool}
    {component : Definition.Component} {c : CompiledDefinition}
    (h : component.Compiles nsid key strict c) {t : RecordType} (ht : c.recordType = some t) :
    ∃ fields, c.schema = .fields fields := by
  cases h with
  | object h => exact ⟨_, h.schema_eq⟩
  | call => exact ⟨_, rfl⟩
  | _ => simp at ht

/-- Reading a record gives what a reference to its definition would make of the value. -/
theorem Bundle.gives_readRecord {env : Surroundings} {r : Registry} (sound : r.Sound)
    {nsid key : String} {b : Bundle} (hb : r.found env nsid = .ok b) {c : CompiledDefinition}
    (hc : b.definitions.find? key = some c) {binding : Binding}
    (hbinding : b.binding? key = some binding) (v : Value) :
    Action.Gives env (r.found env) (b.readRecord env key v)
      (do
        let m ← r.normalized env c.schema v []
        m.hydrated (r.found env) (.ref ⟨nsid, key⟩)) := by
  have faithful := sound.found hb
  obtain ⟨c', t, hc', ht, -⟩ := faithful.binding hbinding
  obtain rfl := Option.some.inj (hc.symm.trans hc')
  obtain ⟨_, component, _, compiles⟩ := faithful.component hc
  have target := faithful.reference_eq hbinding
  have meaning : r.meaning env ⟨nsid, key⟩ = .ok c := Registry.meaning_eq_ok_iff.mpr ⟨b, hb, hc⟩
  refine .bind_lift (Bundle.definition_eq_ok_iff.mpr hc) ?_
  simp only [hbinding, RecordType.ofValue, target]
  have whole := (Registry.gives_definition env r ⟨nsid, key⟩).bind
    (g := fun d => r.normalized env d.schema v [] >>=
      (·.hydrated (r.found env) (.ref ⟨nsid, key⟩)))
    (f := fun d => do
      let checked ← Registry.check env d.schema v
      binding.recordType.ofChecked env (b.classId key binding) d.type checked)
    fun d hd => ?_
  · rw [meaning] at whole
    exact whole
  · obtain rfl := Except.ok.inj (meaning.symm.trans hd)
    refine (Registry.gives_check c.schema v).bind fun m hm => ?_
    obtain ⟨fields, hfields⟩ := compiles.exists_fields ht
    rw [hfields] at hm
    obtain ⟨ms, rfl⟩ := Schema.exists_entries hm
    rw [Registry.hydrated_of_binding hb hc hbinding]
    exact RecordType.gives_ofChecked (fun _ _ => sound.found) (faithful.attributes hbinding) _ _ _

/-- Only the class of a definition reads records. -/
theorem Bundle.exists_of_readRecord {env : Surroundings} {b : Bundle} {key : String}
    {v x : Value} {s : Store} (hx : ((b.readRecord env key v).run s).1 = .ok x) :
    ∃ c binding, b.definitions.find? key = some c ∧ b.binding? key = some binding := by
  rw [readRecord, Check.run_bind, Action.run_lift] at hx
  cases hc : b.definition key with
  | error e => simp [hc] at hx
  | ok c =>
    cases hbinding : b.binding? key with
    | none => simp [hc, hbinding] at hx
    | some binding => exact ⟨c, binding, Bundle.definition_eq_ok_iff.mp hc, rfl⟩

end Lexicon
