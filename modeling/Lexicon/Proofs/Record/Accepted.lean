import Lexicon.Proofs.Check.Located
import Lexicon.Proofs.Record.Reading
import Lexicon.Proofs.Record.Typed
import Lexicon.Proofs.Value.Parts

/-!
# Records of accepted values

A class makes a record of every value that its definition accepts, with one exception. Of a union
the first target that accepts an object counts, but the class of the target that the object names as
its type makes the record; if these are different targets, the class may miss what it requires.

Main statement: where every union that is reached makes of an object what the named target makes of
it, reading a record ends with a record or with the verdict on the value, and with nothing else.
-/

namespace Lexicon

/-- An object of a union only names a target of the union. -/
theorem FieldType.mem_of_target?_eq_some {targets : List Reference} {es : Entries Value}
    {target : Reference} (h : FieldType.target? (.union targets) es = some target) :
    target ∈ targets := by
  simp only [FieldType.target?] at h
  split at h
  · split at h
    · split_ifs at h with listed
      obtain rfl := Option.some.inj h
      exact List.contains_iff_mem.mp listed
    · simp at h
  · simp at h

/-- What is made of a checked object depends on what it holds under its keys alone. -/
theorem Value.exists_hydrated_of_same {bundles : String → Except Fault Bundle}
    {ms ns : Entries Value} (same : ∀ k, Entries.find? ns k = Entries.find? ms k)
    {target : Reference} {x : Value}
    (hx : (Value.object ns).hydrated bundles (.ref target) = .ok x) :
    ∃ y, (Value.object ms).hydrated bundles (.ref target) = .ok y := by
  rw [Value.hydrated_object] at hx ⊢
  obtain ⟨b, hb, hx⟩ := Except.bind_eq_ok_iff.mp hx
  obtain ⟨c, hc, hx⟩ := Except.bind_eq_ok_iff.mp hx
  simp only [FieldType.core, FieldType.target?, hb, hc, Except.ok_bind]
  cases hbinding : b.binding? target.fragment with
  | none => exact ⟨_, rfl⟩
  | some binding =>
    simp only [hbinding] at hx
    refine ⟨x, ?_⟩
    have given : RecordType.given bundles c.type ms = RecordType.given bundles c.type ns := by
      funext slot
      simp only [RecordType.given, same]
    simp only [RecordType.recordOf, given]
    exact hx

namespace Registry

section Reached

variable (env : Surroundings) (r : Registry)

/-- The definition of one reference refers to another, by itself or as a target of a union. -/
def Leads (source target : Reference) : Prop :=
  ∃ c, r.meaning env source = .ok c ∧ ∃ link ∈ c.schema.links, target ∈ link.targets

/-- A definition that a reference leads to, at once or through further references. -/
def Reaches (source : Reference) (c : CompiledDefinition) : Prop :=
  ∃ target, Relation.ReflTransGen (r.Leads env) source target ∧ r.meaning env target = .ok c

/-- The target that a checked object names as its type, if it is one of the union that made it,
accepts the given object as well, and puts the same under every key. -/
def NamedAgrees (targets : List Reference) (es : Entries Value) : Prop :=
  ∀ ms target, r.normalized env (.union targets) (.object es) [] = .ok (.object ms) →
    FieldType.target? (.union targets) ms = some target →
    ∃ ns, r.normalized env (.ref target) (.object es) [] = .ok (.object ns) ∧
      ∀ k, Entries.find? ns k = Entries.find? ms k

/-- This holds of each union that is reached and each object in a value. -/
def UnionsAgree (source : Reference) (v : Value) : Prop :=
  ∀ c, r.Reaches env source c → ∀ targets, .union targets ∈ c.schema.links →
    v.EveryObject (r.NamedAgrees env targets)

/-- No object that is reached has two properties of one name. -/
def DistinctNames (source : Reference) : Prop :=
  ∀ c, r.Reaches env source c → (c.type.properties.map (·.name)).Nodup

end Reached

variable {env : Surroundings} {r : Registry}

theorem Reaches.step {source target : Reference} {c c' : CompiledDefinition}
    (h : r.Reaches env source c) {link : Link} (hlink : link ∈ c.schema.links)
    (htarget : target ∈ link.targets) (hc' : r.meaning env target = .ok c') :
    r.Reaches env source c' := by
  obtain ⟨last, reached, meaning⟩ := h
  exact ⟨target, reached.tail ⟨c, meaning, link, hlink, htarget⟩, hc'⟩

theorem UnionsAgree.find? {source : Reference} {es : Entries Value} {k : String} {x : Value}
    (h : r.UnionsAgree env source (.object es)) (hx : es.find? k = some x) :
    r.UnionsAgree env source x :=
  fun c hc targets hu => (h c hc targets hu).find? hx

/-! ### Parts that are checked alone -/

/-- A part of a value that was accepted at its place is accepted alone. -/
theorem normalized_of_part {v x m : Value} {schema : Schema} {path : Path}
    (depth : x.depth ≤ v.depth)
    (h : (schema.checkWith ((r.meaning env).follow (r.stepBound env v)) x path).outcome = .ok m) :
    r.normalized env schema x [] = .ok m := by
  rw [← normalized_eq env (r.stepBound_mono env depth)] at h
  exact ((alike_normalized env r schema x path []).ok_iff m).mp h

/-- A reference makes of a value what the definition it leads to makes of it. -/
theorem normalized_ref_eq_ok_iff {target : Reference} {v m : Value} {path : Path} :
    r.normalized env (.ref target) v path = .ok m ↔
      ∃ c, r.meaning env target = .ok c ∧ r.normalized env c.schema v path = .ok m := by
  rw [normalized_ref, Except.bind_eq_ok_iff]

/-- An array is made into the list of what is made of its items. -/
theorem forall₂_of_normalized {s : Schema} {bounds : Bounds} {v m : Value}
    (hm : r.normalized env (.array s bounds) v [] = .ok m) :
    ∃ xs ys, (v = .list xs ∨ v = .tuple xs) ∧ m = .list ys ∧
      List.Forall₂ (fun x y => x.depth < v.depth ∧ r.normalized env s x [] = .ok y) xs ys := by
  obtain ⟨xs, ys, hv, rfl, hys⟩ := Schema.forall₂_of_array hm
  refine ⟨xs, ys, hv, rfl, hys.imp_mem fun x hx y _ ⟨path, hy⟩ => ?_⟩
  have less : x.depth < v.depth := by
    have within := Value.depth_lt_of_mem_items hx
    rcases hv with rfl | rfl <;> exact within
  exact ⟨less, normalized_of_part (Nat.le_of_lt less) hy⟩

/-- Each item of the list that an array is made into is made of a part that is less deep. -/
theorem exists_items_of_normalized {s : Schema} {bounds : Bounds} {v m : Value}
    (hm : r.normalized env (.array s bounds) v [] = .ok m) :
    ∃ ys, m = .list ys ∧ ∀ y ∈ ys, ∃ x step, Path.follow? [step] v = some x ∧
      x.depth < v.depth ∧ r.normalized env s x [] = .ok y := by
  obtain ⟨xs, ys, hv, rfl, hys⟩ := forall₂_of_normalized hm
  refine ⟨ys, rfl, fun y hy => ?_⟩
  obtain ⟨x, hx, made⟩ := hys.exists_left hy
  obtain ⟨i, hi⟩ := List.getElem?_of_mem hx
  refine ⟨x, .index i, ?_, made⟩
  rcases hv with rfl | rfl <;> simp [hi]

/-! ### Making records -/

/-- Something is made of what a schema in a reached definition accepts of a value. -/
private def Makes (env : Surroundings) (r : Registry) (source : Reference) (v : Value) : Prop :=
  ∀ c, r.Reaches env source c → ∀ s t, s.links ⊆ c.schema.links → s.Typed t →
    ∀ m, r.normalized env s v [] = .ok m → ∃ x, m.hydrated (r.found env) t = .ok x

section Property

variable {source : Reference} {c : CompiledDefinition} {p : Definition.CompiledProperty}

/-- Something is made of the value that a property has put into a checked object. -/
private theorem exists_hydrated_of_part (typed : Definition.PropertyTyped p)
    (reached : r.Reaches env source c) (links : p.schema.links ⊆ c.schema.links)
    {es : Entries Value}
    (makes : ∀ x, es.find? p.property.name = some x → Makes env r source x)
    {e : String × Value}
    (he : Schema.part ((r.meaning env).follow (r.stepBound env (.object es))) es []
      p.property.name p.schema = .ok (some e)) :
    ∃ v, e.2.hydrated (r.found env) p.property.type = .ok v := by
  obtain @⟨name, field, compiled, required, nullable, core, -, plain⟩ := typed
  have unmarked (v : Value) :
      v.hydrated (r.found env)
        (Definition.CompiledProperty.of name field compiled required nullable).property.type =
      v.hydrated (r.found env) compiled.type := by
    cases nullable
    · rfl
    · exact Value.hydrated_nullable _ v _
  rw [unmarked]
  change Schema.part _ es [] name _ = _ at he
  rcases Schema.part_eq_some_iff.mp he with ⟨x, y, hx, hy, rfl⟩ | ⟨-, d, hd, rfl⟩
  · rw [Definition.CompiledProperty.checkWith_of] at hy
    split_ifs at hy
    · obtain rfl := Except.ok.inj hy
      exact ⟨.null, Value.hydrated_of_plain _ (by simp) (by simp) _⟩
    · have depth : x.depth ≤ (Value.object es).depth := (Value.depth_lt_of_found hx).le
      exact makes x hx c reached _ _ (Definition.CompiledProperty.links_of ▸ links) core y
        (normalized_of_part depth hy)
  · rw [Definition.CompiledProperty.default?_of] at hd
    exact ⟨d, plain d hd _ d⟩

end Property

section Reference

variable {source : Reference} {v : Value}

/-- A record is made of a checked object by the class of a reached definition, if something is made
of each value in the object. -/
private theorem exists_record (sound : r.Sound) (names : r.DistinctNames env source)
    {target : Reference} {b : Bundle} (hb : r.found env target.nsid = .ok b)
    {c : CompiledDefinition} (hc : b.definitions.find? target.fragment = some c)
    (reached : r.Reaches env source c) {binding : Binding}
    (hbinding : b.binding? target.fragment = some binding)
    (makes : ∀ es : Entries Value, v = .object es → ∀ k x, es.find? k = some x →
      Makes env r source x)
    {m : Value} (hm : r.normalized env c.schema v [] = .ok m) :
    ∃ made, m.hydrated (r.found env) (.ref target) =
      .ok (.record (b.recordClass target.fragment binding) made) := by
  have faithful := sound.found hb
  obtain ⟨c', t, hc', ht, renamed⟩ := faithful.binding hbinding
  obtain rfl := Option.some.inj (hc.symm.trans hc')
  obtain ⟨strict, component, hmem, compiles⟩ := faithful.component hc
  obtain ⟨e, _, he⟩ := List.mem_flatMap.mp hmem
  obtain ⟨properties, typeName, typed⟩ := compiles.exists_objectTyped
    (faithful.id_eq ▸ Definition.made_of_mem_components he) ht
  have distinct : (properties.map (·.property.name)).Nodup := by
    have named := names c reached
    rw [typed.type_eq, DefinitionType.properties, List.map_map] at named
    exact named
  rw [normalized, typed.schema_eq] at hm
  obtain ⟨es, parts, rfl, hparts, rfl⟩ := Schema.outcome_fields_eq_ok_iff.mp hm
  have links {p : Definition.CompiledProperty} (hp : p ∈ properties) :
      p.schema.links ⊆ c.schema.links := by
    rw [typed.schema_eq]
    exact Schema.links_subset_of_mem
      (List.mem_map_of_mem (f := fun p => (p.property.name, p.schema)) hp)
  have renamedTyped : Definition.ObjectTyped properties typeName c binding.recordType := by
    rw [renamed]
    exact { typed with built := typed.built.rename _ }
  obtain ⟨made, hmade⟩ := renamedTyped.exists_attributes distinct hparts fun p hp e he =>
    exists_hydrated_of_part (typed.typed p hp) reached (links hp)
      (fun x hx => makes es rfl _ x hx) he
  refine ⟨made, ?_⟩
  rw [hydrated_of_binding hb hc hbinding, RecordType.recordOf, hmade]
  rfl

/-- Something is made of what a reference to a reached definition accepts. -/
private theorem exists_hydrated_of_ref (sound : r.Sound) (names : r.DistinctNames env source)
    {target : Reference}
    (reached : ∀ c, r.meaning env target = .ok c → r.Reaches env source c)
    (makes : ∀ es : Entries Value, v = .object es → ∀ k x, es.find? k = some x →
      Makes env r source x)
    {m : Value} (hm : r.normalized env (.ref target) v [] = .ok m) :
    ∃ x, m.hydrated (r.found env) (.ref target) = .ok x := by
  obtain ⟨c, meaning, hm⟩ := normalized_ref_eq_ok_iff.mp hm
  obtain ⟨b, hb, hc⟩ := meaning_eq_ok_iff.mp meaning
  cases hbinding : b.binding? target.fragment with
  | none => exact ⟨m, hydrated_of_unbound hb hc hbinding m⟩
  | some binding =>
    obtain ⟨made, hmade⟩ := exists_record sound names hb hc (reached c meaning) hbinding makes hm
    exact ⟨_, hmade⟩

/-- What a union makes of an object, an object or not, becomes what the named target makes of it. -/
private theorem exists_hydrated_of_union (sound : r.Sound) (names : r.DistinctNames env source)
    {c : CompiledDefinition} (reachedUnion : r.Reaches env source c) {targets : List Reference}
    (hlink : .union targets ∈ c.schema.links) (agree : r.UnionsAgree env source v)
    (makes : ∀ es : Entries Value, v = .object es → ∀ k x, es.find? k = some x →
      Makes env r source x)
    {m : Value} (hm : r.normalized env (.union targets) v [] = .ok m) :
    ∃ x, m.hydrated (r.found env) (.union targets) = .ok x := by
  cases m with
  | list ys => exact ⟨_, Value.hydrated_list _ ys _⟩
  | object ms =>
    have core : (FieldType.union targets).core = .union targets := rfl
    rw [Value.hydrated_object, core]
    cases htarget : FieldType.target? (.union targets) ms with
    | none => exact ⟨_, rfl⟩
    | some target =>
      cases v with
      | object es =>
        obtain ⟨ns, named, same⟩ := (agree c reachedUnion targets hlink).self ms target hm htarget
        have listed := FieldType.mem_of_target?_eq_some htarget
        obtain ⟨x, hx⟩ := exists_hydrated_of_ref sound names
          (fun c' hc' => reachedUnion.step hlink listed hc') makes named
        obtain ⟨y, hy⟩ := Value.exists_hydrated_of_same same hx
        rw [Value.hydrated_object] at hy
        exact ⟨y, hy⟩
      | _ => simp [normalized, Schema.checkWith, Check.fail] at hm
  | _ => exact ⟨_, Value.hydrated_of_plain _ (by simp) (by simp) _⟩

end Reference

/-- Something is made of every value that is accepted, down to the parts that are less deep. -/
private theorem makes_of_unionsAgree (sound : r.Sound) {source : Reference}
    (names : r.DistinctNames env source) (v : Value) (agree : r.UnionsAgree env source v) :
    Makes env r source v := by
  induction v using Value.depth_induction with
  | step v ih =>
    have makes (es : Entries Value) (hv : v = .object es) (k : String) (x : Value)
        (hx : es.find? k = some x) : Makes env r source x := by
      subst hv
      exact ih x (Value.depth_lt_of_found hx) (agree.find? hx)
    intro c reached s t links typed m hm
    cases typed with
    | plain plain => exact ⟨m, plain _ m⟩
    | ref target =>
      exact exists_hydrated_of_ref sound names
        (fun c' hc' => reached.step (links List.mem_cons_self) List.mem_cons_self hc') makes hm
    | union targets =>
      exact exists_hydrated_of_union sound names reached (links List.mem_cons_self) agree makes hm
    | @array s t items bounds =>
      obtain ⟨ys, rfl, each⟩ := exists_items_of_normalized hm
      have made : ∀ y ∈ ys, ∃ x, y.hydrated (r.found env) t = .ok x := by
        intro y hy
        obtain ⟨x, step, hstep, less, hx⟩ := each y hy
        have parts : r.UnionsAgree env source x := fun c hc targets hu =>
          (agree c hc targets hu).part hstep
        exact ih x less parts c reached s t links items y hx
      obtain ⟨xs, hxs⟩ := List.exists_forall₂ made
      refine ⟨.list xs, ?_⟩
      rw [Value.hydrated_list]
      exact Except.map_eq_ok_iff.mpr ⟨xs, Except.mapM_eq_ok_iff.mpr hxs, rfl⟩

end Registry

/-! ### Reading records -/

section Reading

variable {env : Surroundings} {s : Store} {nsid key : String} {b : Bundle} {c : CompiledDefinition}

/-- The verdict of a bundle on a value. -/
theorem Bundle.fst_run_verdict (hc : b.definitions.find? key = some c) (v : Value) :
    ((b.verdict env key v).run s).1 =
      Registry.verdictOf (s.registry.normalized env c.schema v []) := by
  rw [Bundle.verdict, Bundle.definition_eq_ok_iff.mpr hc, Check.run_bind, Action.run_lift]
  exact Registry.fst_run_verdict env c.schema v s

/-- What the class of a definition makes of a value: it looks the definition up, checks the value by
it, and makes a record of the result. -/
theorem RecordType.exists_run_ofValue (t : RecordType) (id : ClassId) (v : Value) (s : Store) :
    ∃ s' : Store, ((t.ofValue env id v).run s).1 = (do
      let c ← s.registry.meaning env ⟨t.nsid, t.key⟩
      let m ← s.registry.normalized env c.schema v []
      ((t.ofChecked env id c.type m).run s').1) := by
  obtain ⟨outcome, registry⟩ := Registry.run_definition env ⟨t.nsid, t.key⟩ s
  have answers := Registry.found_asked env s.registry t.nsid
  rw [← registry] at answers
  rw [ofValue, Check.run_bind, Registry.meaning, ← outcome]
  generalize (Registry.definition env ⟨t.nsid, t.key⟩).run s = looked at answers ⊢
  obtain ⟨e | c, s₁⟩ := looked
  · exact ⟨s, rfl⟩
  · have verdict := Registry.fst_run_verdict env c.schema v s₁
    rw [Registry.normalized_congr env (congrArg Lookup.ofBundles answers)] at verdict
    simp only [Check.run_bind, Registry.check, Except.ok_bind]
    generalize (Registry.verdict env c.schema v).run s₁ = judged at verdict ⊢
    obtain ⟨outcome, s₂⟩ := judged
    obtain rfl : outcome = _ := verdict
    refine ⟨s₂, ?_⟩
    rcases s.registry.normalized env c.schema v [] with e | m
    · cases e <;> rfl
    · rfl

variable (env) in
/-- The class of a key of a faithful bundle looks up the definition of this name. -/
theorem Bundle.Faithful.exists_run_readRecord (faithful : b.Faithful nsid) {binding : Binding}
    (hbinding : b.binding? key = some binding) (v : Value) (s : Store) :
    ∃ s' : Store, ((b.readRecord env key v).run s).1 = (do
      let c ← s.registry.meaning env ⟨nsid, key⟩
      let m ← s.registry.normalized env c.schema v []
      ((binding.recordType.ofChecked env (b.classId key binding) c.type m).run s').1) := by
  obtain ⟨c, t, hc, -, -⟩ := faithful.binding hbinding
  rw [readRecord, Bundle.definition_eq_ok_iff.mpr hc, Check.run_bind, Action.run_lift]
  simp only [hbinding]
  rw [← faithful.reference_eq hbinding]
  exact binding.recordType.exists_run_ofValue _ v s

/-- A value that is not accepted makes no record: what the check ends with is what the reading ends
with. -/
theorem Bundle.fst_run_readRecord_of_error (sound : s.registry.Sound)
    (hb : s.registry.found env nsid = .ok b) (hc : b.definitions.find? key = some c)
    {binding : Binding} (hbinding : b.binding? key = some binding) {v : Value} {e : Fault}
    (he : s.registry.normalized env c.schema v [] = .error e) :
    ((b.readRecord env key v).run s).1 = .error e := by
  have meaning : s.registry.meaning env ⟨nsid, key⟩ = .ok c :=
    Registry.meaning_eq_ok_iff.mpr ⟨b, hb, hc⟩
  obtain ⟨s', read⟩ := (sound.found hb).exists_run_readRecord env hbinding v s
  rw [read, meaning, Except.ok_bind, he, Except.error_bind]

end Reading

/-! ### Documents with a union -/

/-- A document with a record of a union, and two objects for its targets. The second of them has a
text that must be given. -/
def unionDocument (targets : List Value) : Document where
  id := "com.example.union"
  definitions := [
    ("main", .record { properties := [
      ("part", { type := .str "union", options := [("refs", .list targets)] })] } .null .null),
    ("any", .object { properties := [] }),
    ("named", .object {
      properties := [("name", { type := .str "string" })], required := [.str "name"] })]
  version := .int 1
  revision := .null
  description := .null
  source := .null

/-- A store whose registry loads this document. -/
def unionStore (targets : List Value) : Store :=
  ⟨{ id := 0, sources := [.documents [unionDocument targets]], strict := some true }, []⟩

/-- The bundle of this document, the class of the record and what the record is checked to, if the
value is accepted. -/
private def accepted (s : Store) (v : Value) : Option (Bundle × Binding × Value) := do
  let b ← (s.registry.found {} "com.example.union").toOption
  let binding ← b.binding? "main"
  let verdict ← ((b.verdict {} "main" v).run s).1.toOption
  return (b, binding, ← verdict.toOption)

private theorem of_accepted {s : Store} {v : Value} {x : Bundle × Binding × Value}
    (h : accepted s v = some x) :
    s.registry.found {} "com.example.union" = .ok x.1 ∧ x.1.binding? "main" = some x.2.1 ∧
      ((x.1.verdict {} "main" v).run s).1 = .ok (.ok x.2.2) := by
  obtain ⟨b, hb, h⟩ := Option.bind_eq_some_iff.mp h
  obtain ⟨binding, hbinding, h⟩ := Option.bind_eq_some_iff.mp h
  obtain ⟨verdict, hverdict, h⟩ := Option.bind_eq_some_iff.mp h
  obtain ⟨n, hn, h⟩ := Option.bind_eq_some_iff.mp h
  obtain rfl := Option.some.inj h
  obtain rfl := Except.eq_ok_of_toOption_eq_some hn
  exact ⟨Except.eq_ok_of_toOption_eq_some hb, hbinding,
    Except.eq_ok_of_toOption_eq_some hverdict⟩

/-- A union of one target makes of every object what the target makes of it. -/
theorem Registry.namedAgrees_single (env : Surroundings) (r : Registry) (target : Reference)
    (es : Entries Value) : r.NamedAgrees env [target] es := by
  intro ms named hm hnamed
  obtain rfl := List.mem_singleton.mp (FieldType.mem_of_target?_eq_some hnamed)
  refine ⟨ms, ?_, fun _ => rfl⟩
  rw [Registry.normalized, Schema.checkWith_union, if_neg (by simp), List.map_singleton,
    Check.outcome_oneOf_cons] at hm
  split at hm
  · next x hx => rw [← Except.ok.inj hm, ← hx]; rfl
  · simp [Check.oneOf, Check.firstOf, Check.fail] at hm
  · simp at hm

end Lexicon
