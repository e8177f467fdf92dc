import Lexicon.Proofs.Document.Declared
import Lexicon.Proofs.Registry.Guarded
import Lexicon.Proofs.Schema.Lasting

/-!
# Defaults and their fields

A default stands in for an absent value without being checked, and nothing compares it with what
else its field says. Main statement: in every document that compiles, the field of a property takes
the default of the property exactly if the default conforms to the field, and then leaves it as it
is; and what a definition has made of a value, defaults included, no second check refuses, provided
that the defaults that were reached conform to their fields and no union that was reached makes
bytes of an object.
-/

namespace Lexicon

/-! ### What definitions consist of -/

@[simp] theorem Schema.declared_fields (fs : List (String × Schema)) :
    (Schema.fields fs).declared = fs := rfl

/-- The schema of a link by itself. -/
def Link.schema : Link → Schema
  | .ref target => .ref target
  | .union targets => .union targets

/-- The schemas of fields. -/
inductive Schema.OfField : Schema → Prop
  | scalar {s : Schema} (h : s.Scalar) : OfField s
  | default {s : Schema} (h : s.Scalar) (value : Value) : OfField (.withDefault s value)
  | array {items : Schema} (h : OfField items) (bounds : Bounds) : OfField (.array items bounds)
  | blob (pattern : MediaPattern) (maxSize : Option Value) :
      OfField (Field.blobSchema pattern maxSize)
  | bytes (bounds : Bounds) : OfField (.bytes bounds)
  | cidLink : OfField Field.linkSchema
  | ref (target : Reference) : OfField (.ref target)
  | union (targets : List Reference) : OfField (.union targets)
  | unknown : OfField .any
  | unrecognized : OfField .noop

theorem Field.ofField_addDefault {f : Field} {s : Schema} (h : s.Scalar) :
    (f.addDefault s).OfField := by
  unfold addDefault
  split
  · exact .default h _
  · exact .scalar h

theorem Field.Compiles.ofField {nsid : String} {strict : Bool} {f : Field} {c : CompiledField}
    (h : Compiles nsid strict f c) : c.schema.OfField := by
  induction h with
  | array _ ih => exact .array ih _
  | string _ hschema => exact ofField_addDefault (scalar_of_stringSchema hschema)
  | boolean _ hfixed => exact ofField_addDefault (scalar_getD hfixed .boolean)
  | integer _ hfixed => exact ofField_addDefault (scalar_getD hfixed (.integer _))
  | blob => exact .blob _ _
  | bytes => exact .bytes _
  | cidLink => exact .cidLink
  | ref => exact .ref _
  | union => exact .union _
  | unknown => exact .unknown
  | unrecognized => exact .unrecognized

namespace Definition

/-- A property with the schema of a field. -/
inductive CompiledProperty.OfField : CompiledProperty → Prop
  | of {name : String} {field : Field} {compiled : CompiledField} {required nullable : Bool}
      (schema : compiled.schema.OfField) : OfField (.of name field compiled required nullable)

/-- A definition that is an object of properties with the schemas of fields. -/
structure ObjectOf (properties : List CompiledProperty) (c : CompiledDefinition) : Prop where
  schema_eq : c.schema = .fields (fieldsOf properties)
  type_eq : c.type = .object (properties.map (·.property))
  ofField : ∀ p ∈ properties, p.OfField

/-- A definition is an object or a field. -/
inductive Consists (c : CompiledDefinition) : Prop
  | object {properties : List CompiledProperty} (h : ObjectOf properties c)
  | field (h : c.schema.OfField)

theorem Component.Compiles.consists {nsid key : String} {strict : Bool} {component : Component}
    {c : CompiledDefinition} (h : component.Compiles nsid key strict c)
    (made : component.Made nsid) : Consists c := by
  cases h with
  | @object _ _ _ _ compiled _ _ h =>
    refine .object ⟨h.schema_eq, h.type_eq, ?_⟩
    intro p hp
    obtain ⟨e, _, field, hfield, rfl⟩ := h.properties.exists_left hp
    exact .of (Field.compiles_of_outcome hfield).ofField
  | call =>
    cases made with
    | call d call partKeys =>
      refine .object (show ObjectOf (callFields nsid d call partKeys) _ from ⟨rfl, rfl, ?_⟩)
      intro p hp
      rcases mem_callFields hp with ⟨key, _, required, rfl⟩ | rfl
      · exact .of (.ref _)
      · exact .of .unknown
  | token => exact .field (.scalar (.string _))
  | field h => exact .field (Field.compiles_of_outcome h).ofField

end Definition

/-! ### Checking again -/

section Lasting

variable {follow : Reference → Value → Path → Check Unit Value}

/-- The schema of a field finds no failure in what it has made of a value, if its references and
its unions do not. -/
theorem Schema.OfField.lasting {s : Schema} (h : s.OfField)
    (links : ∀ link ∈ s.links, link.schema.Lasting follow) : s.Lasting follow := by
  induction h with
  | scalar h => exact h.idempotent.lasting
  | default h value => exact (h.idempotent.withDefault value).lasting
  | array _ bounds ih => exact (ih links).array bounds
  | blob pattern maxSize => exact (Schema.idempotent_blobSchema pattern maxSize).lasting
  | bytes bounds => exact (Schema.idempotent_bytes bounds).lasting
  | cidLink => exact Schema.idempotent_linkSchema.lasting
  | ref => exact links _ (List.mem_singleton_self _)
  | union => exact links _ (List.mem_singleton_self _)
  | unknown => exact Schema.idempotent_any.lasting
  | unrecognized => exact Schema.idempotent_noop.lasting

theorem Schema.OfField.exists_scalar {s : Schema} (h : s.OfField) {d : Value}
    (hd : s.default? = some d) : ∃ inner : Schema, inner.Scalar ∧ s = .withDefault inner d := by
  cases h with
  | default h value =>
    rw [← Option.some.inj hd]
    exact ⟨_, h, rfl⟩
  | scalar h => cases h <;> cases hd
  | _ => cases hd

namespace Definition

theorem CompiledProperty.OfField.lastingField {p : CompiledProperty} (h : p.OfField)
    (links : ∀ link ∈ p.schema.links, link.schema.Lasting follow)
    (fits : ∀ d, p.schema.default? = some d → p.schema.Accepts d) :
    p.schema.LastingField follow := by
  obtain @⟨name, field, compiled, required, nullable, schema⟩ := h
  rw [links_of] at links
  have lasting := schema.lasting links
  constructor
  · cases required <;> cases nullable
    · exact lasting
    · exact lasting.nullable
    · exact lasting.required
    · exact lasting.nullable.required
  · intro d hd path
    rw [outcome_checkWith_default (fun _ => schema.exists_scalar) hd (fits d hd) path]
    exact NoFailure.ok d

/-- An object finds no failure in what it has made of a value, if its references and its unions do
not, its properties have names of their own, and its defaults are accepted by the fields that they
stand in for. -/
theorem ObjectOf.lasting {properties : List CompiledProperty} {c : CompiledDefinition}
    (h : ObjectOf properties c) (names : (c.type.properties.map (·.name)).Nodup)
    (defaults : ∀ e ∈ c.schema.declared, ∀ d, e.2.default? = some d → e.2.Accepts d)
    (links : ∀ link ∈ c.schema.links, link.schema.Lasting follow) : c.schema.Lasting follow := by
  rw [h.type_eq, DefinitionType.properties, List.map_map] at names
  rw [h.schema_eq] at defaults links ⊢
  apply Schema.lasting_fields
  · rw [keys_fieldsOf]
    exact names
  · intro e he
    obtain ⟨p, hp, rfl⟩ := List.mem_map.mp he
    apply (h.ofField p hp).lastingField
    · intro link hlink
      exact links link (Schema.links_subset_of_mem he hlink)
    · exact defaults _ he

end Definition

end Lasting

/-! ### Objects made of objects -/

theorem Schema.OfField.keepsObjects {follow : Reference → Value → Path → Check Unit Value}
    {s : Schema} (h : s.OfField) (bytes : ∀ bounds, s ≠ .bytes bounds)
    (redirects : ∀ t ∈ s.redirects, (Schema.ref t).KeepsObjects follow) :
    s.KeepsObjects follow := by
  intro es path m hm
  cases h with
  | scalar h => exact ⟨es, (h.accepted hm).1⟩
  | default h value =>
    rw [checkWith] at hm
    exact ⟨es, (h.accepted hm).1⟩
  | array =>
    rw [checkWith] at hm
    · cases hm
    all_goals simp
  | blob pattern maxSize =>
    rcases outcome_blobSchema_iff.mp hm with made | ⟨-, made⟩
    · exact exists_entries made
    · exact exists_entries made
  | bytes bounds => exact absurd rfl (bytes bounds)
  | cidLink => exact exists_entries hm
  | ref target => exact redirects target (List.mem_singleton_self _) hm
  | union targets =>
    rw [checkWith_union] at hm
    split_ifs at hm
    · exact ⟨es, (Except.ok.inj hm).symm⟩
    · obtain ⟨check, hcheck, made⟩ := Check.exists_of_outcome_oneOf hm
      obtain ⟨t, ht, rfl⟩ := List.mem_map.mp hcheck
      exact redirects t ht made
  | unknown => exact ⟨es, (Except.ok.inj hm).symm⟩
  | unrecognized => exact ⟨es, (Except.ok.inj hm).symm⟩

/-! ### Registries -/

namespace Registry

variable {env : Surroundings} {r : Registry}

/-- No chain of references and unions alone leads to a definition of bytes. -/
def AvoidsBytes (env : Surroundings) (r : Registry) (t : Reference) : Prop :=
  ∀ t', Relation.ReflTransGen (r.HandsOn env) t t' → ∀ c, r.meaning env t' = .ok c →
    ∀ bounds, c.schema ≠ .bytes bounds

/-- A definition that hands no value on avoids bytes if it is none. -/
theorem avoidsBytes_of_meaning {t : Reference} {c : CompiledDefinition}
    (hc : r.meaning env t = .ok c) (last : c.schema.redirects = [])
    (bytes : ∀ bounds, c.schema ≠ .bytes bounds) : r.AvoidsBytes env t := by
  intro t' chain c' hc'
  rcases chain.cases_head with rfl | ⟨next, ⟨c'', hc'', hnext⟩, _⟩
  · rwa [← Except.ok.inj (hc.symm.trans hc')]
  · rw [← Except.ok.inj (hc.symm.trans hc''), last] at hnext
    cases hnext

/-- The properties of a definition have names of their own, its defaults are accepted by the fields
that they stand in for, and its unions avoid bytes. -/
structure Lasts (env : Surroundings) (r : Registry) (c : CompiledDefinition) : Prop where
  names : (c.type.properties.map (·.name)).Nodup
  defaults : ∀ e ∈ c.schema.declared, ∀ d, e.2.default? = some d → e.2.Accepts d
  unions : ∀ targets, Link.union targets ∈ c.schema.links → ∀ t ∈ targets, r.AvoidsBytes env t

theorem Sound.consists (sound : r.Sound) {t : Reference} {c : CompiledDefinition}
    (hc : r.meaning env t = .ok c) : Definition.Consists c := by
  obtain ⟨b, hb, hdefinition⟩ := meaning_eq_ok_iff.mp hc
  obtain ⟨_, component, hmem, compiles⟩ := (sound.found hb).component hdefinition
  obtain ⟨e, _, he⟩ := List.mem_flatMap.mp hmem
  rw [(sound.found hb).id_eq] at he
  exact compiles.consists (Definition.made_of_mem_components he)

/-- References that avoid bytes make objects of objects. The induction is on the references that are
followed one after the other. -/
theorem AvoidsBytes.keepsObjects (sound : r.Sound) (n : Nat) {t : Reference}
    (h : r.AvoidsBytes env t) : (Schema.ref t).KeepsObjects ((r.meaning env).follow n) := by
  induction n generalizing t with
  | zero =>
    intro es path m hm
    cases hm
  | succ n ih =>
    intro es path m hm
    obtain ⟨c, hc, hm⟩ := outcome_follow_eq_ok_iff.mp hm
    cases sound.consists hc with
    | object object =>
      rw [object.schema_eq] at hm
      exact Schema.exists_entries hm
    | field field =>
      refine field.keepsObjects (h t .refl c hc) ?_ hm
      intro t' ht'
      apply ih
      intro last chain
      exact h last (.head ⟨c, hc, ht'⟩ chain)

theorem Lasts.lasting {c : CompiledDefinition} (lasts : r.Lasts env c)
    (consists : Definition.Consists c) {follow : Reference → Value → Path → Check Unit Value}
    (links : ∀ link ∈ c.schema.links, link.schema.Lasting follow) : c.schema.Lasting follow := by
  cases consists with
  | object object => exact object.lasting lasts.names lasts.defaults links
  | field field => exact field.lasting links

/-- A link of a definition finds no failure in what it has made of a value, if its targets do not
and its definition lasts. -/
theorem Lasts.link {c : CompiledDefinition} (lasts : r.Lasts env c) (sound : r.Sound) (n : Nat)
    {link : Link} (hlink : link ∈ c.schema.links)
    (targets : ∀ t ∈ link.targets, (Schema.ref t).Lasting ((r.meaning env).follow n)) :
    link.schema.Lasting ((r.meaning env).follow n) := by
  cases link with
  | ref t => exact targets t (List.mem_singleton_self _)
  | union ts =>
    apply Schema.lasting_union targets
    intro t ht
    exact (lasts.unions ts hlink t ht).keepsObjects sound n

/-- What a definition refers to finds no failure in what it has made of a value, if all definitions
that are reached last. The induction is on the references that are followed one after the other. -/
theorem lasting_target (sound : r.Sound) (n : Nat) {c : CompiledDefinition}
    (lasts : ∀ c', Relation.ReflTransGen (r.RefersOn env) c c' → r.Lasts env c') {link : Link}
    (hlink : link ∈ c.schema.links) {t : Reference} (ht : t ∈ link.targets) :
    (Schema.ref t).Lasting ((r.meaning env).follow n) := by
  induction n generalizing c link t with
  | zero =>
    intro v m path hm
    cases hm
  | succ n ih =>
    intro v m path hm
    obtain ⟨c', hc', hm⟩ := outcome_follow_eq_ok_iff.mp hm
    have next : r.RefersOn env c c' := ⟨link, hlink, t, ht, hc'⟩
    have reached : ∀ c'', Relation.ReflTransGen (r.RefersOn env) c' c'' → r.Lasts env c'' := by
      intro c'' h
      exact lasts c'' (h.head next)
    have again : c'.schema.Lasting ((r.meaning env).follow n) := by
      apply (reached c' .refl).lasting (sound.consists hc')
      intro link' hlink'
      apply (reached c' .refl).link sound n hlink'
      intro t' ht'
      exact ih reached hlink' ht'
    rw [Schema.checkWith, Lookup.follow, Check.outcome_bind, Check.outcome_lift, hc',
      Except.ok_bind]
    exact again hm

/-- What a sound registry has made of a value by a definition it does not refuse, if all definitions
that are reached last. -/
theorem noFailure_normalized (sound : r.Sound) {c : CompiledDefinition}
    (consists : Definition.Consists c)
    (lasts : ∀ c', Relation.ReflTransGen (r.RefersOn env) c c' → r.Lasts env c') {v n : Value}
    (h : r.normalized env c.schema v [] = .ok n) : NoFailure (r.normalized env c.schema n []) := by
  rw [normalized_eq env (Nat.le_max_left _ (r.stepBound env n))] at h
  rw [normalized_eq env (Nat.le_max_right (r.stepBound env v) _)]
  refine (lasts c .refl).lasting consists ?_ h
  intro link hlink
  apply (lasts c .refl).link sound _ hlink
  intro t ht
  exact lasting_target sound _ lasts hlink ht

end Registry

/-! ### Defaults of properties -/

namespace Field

theorem mem_scalarTypes_of_defaultTypes {type : String} (h : type ∈ defaultTypes) :
    type ∈ scalarTypes := by
  simp only [defaultTypes, List.mem_cons, List.not_mem_nil, or_false] at h
  rcases h with rfl | rfl | rfl <;> simp [scalarTypes]

/-- Values that may stand in for absent ones are left as they are. -/
theorem normalizesTo_of_defaultTypes {f : Field} {type : String} (h : type ∈ defaultTypes)
    {v n : Value} : NormalizesTo f type v n ↔ n = v := by
  simp only [defaultTypes, List.mem_cons, List.not_mem_nil, or_false] at h
  rcases h with rfl | rfl | rfl <;> rfl

/-- A default of the declared form is not null. -/
theorem Declared.default_ne_null {f : Field} (h : f.Declared) {type : String}
    (htype : f.type = .str type) (htypes : type ∈ defaultTypes) {x : Value}
    (hx : f.options.find? "default" = some x) : x ≠ .null := by
  rintro rfl
  simp only [defaultTypes, List.mem_cons, List.not_mem_nil, or_false] at htypes
  rcases htypes with rfl | rfl | rfl
  · have accepted := h _ _ _ (htype ▸ Language.mem_options "boolean" rfl
      (show ("default", Schema.boolean) ∈ _ by simp)) hx
    exact absurd accepted (by decide)
  · have accepted := h _ _ _ (htype ▸ Language.mem_options "integer" rfl
      (show ("default", Language.anyInteger) ∈ _ by simp)) hx
    exact absurd accepted (by decide)
  · have accepted := h _ _ _ (htype ▸ Language.mem_options "string" rfl
      (show ("default", Schema.text) ∈ _ by simp)) hx
    exact absurd accepted (by decide)

theorem declared_brandField (typeName : String) :
    (Definition.brandField typeName).Declared := by
  intro key s y hs hy
  have text : y = .str typeName ∧ (key = "const" ∨ key = "default") := by
    simp only [Definition.brandField, Entries.find?] at hy
    split_ifs at hy with const default
    · exact ⟨(Option.some.inj hy).symm, .inl const.symm⟩
    · exact ⟨(Option.some.inj hy).symm, .inr default.symm⟩
  have options : Language.options (.str "string") = _ :=
    Language.options_of_find? (show Entries.find? Language.fieldTypes "string" =
      some Language.stringField from rfl)
  have known : s = .text := by
    rw [Definition.brandField, options] at hs
    rcases text.2 with rfl | rfl <;> simpa using hs
  rw [known, text.1]
  exact Definition.accepts_text typeName

end Field

namespace Document

/-- The properties that an object compiles, the type of a record among them, say of themselves only
what is declared. -/
theorem declared_of_mem_merge {v : Value} {d : Document} (hd : ofValue v = .ok d) {key : String}
    {body : ObjectBody} {typeName : Option String} {brand : Entries Field}
    (hmem : (key, .object body typeName brand) ∈ d.components) {e : String × Field}
    (he : e ∈ body.properties.merge brand) : e.2.Declared := by
  obtain ⟨definition, _, hcomponent⟩ := List.mem_flatMap.mp hmem
  have made := Definition.made_of_mem_components hcomponent
  rcases Entries.mem_merge he with he | he
  · exact declared_of_ofValue hd _ hmem e he
  · cases made with
    | object => cases he
    | record =>
      rw [List.mem_singleton.mp he]
      exact Field.declared_brandField _

/-- A property of an object of a document that compiles is a declared field of the schema of its
definition. -/
theorem exists_declared {d : Document} {strict : Bool} {definitions : Entries CompiledDefinition}
    (compiled : (d.compileAll strict).outcome = .ok definitions) {key : String}
    {body : ObjectBody} {typeName : Option String} {brand : Entries Field}
    (hmem : (key, .object body typeName brand) ∈ d.components) {name : String} {f : Field}
    (hf : (name, f) ∈ body.properties.merge brand) :
    ∃ c field required nullable, definitions.find? key = some c ∧
      (f.compile d.id strict).outcome = .ok field ∧
      (name, (Definition.CompiledProperty.of name f field required nullable).schema) ∈
        c.schema.declared := by
  obtain ⟨made, distinct⟩ := compiles_of_outcome compiled
  obtain ⟨⟨key', c⟩, hc, hkey, compiles⟩ := made.exists_right hmem
  obtain rfl : key' = key := hkey
  cases compiles with
  | object h =>
    obtain ⟨p, hp, field, hfield, rfl⟩ := h.properties.exists_right hf
    have found : definitions.find? key' = some c := (Entries.find?_eq_some_iff distinct).mpr hc
    have declared := List.mem_map_of_mem (f := fun p => (p.property.name, p.schema)) hp
    rw [← Schema.declared_fields (List.map _ _), ← h.schema_eq] at declared
    exact ⟨c, field, _, _, found, hfield, declared⟩

/-- What a document compiles to are objects and fields. -/
theorem consists_of_compileAll {d : Document} {strict : Bool}
    {definitions : Entries CompiledDefinition}
    (compiled : (d.compileAll strict).outcome = .ok definitions) {key : String}
    {c : CompiledDefinition} (hc : definitions.find? key = some c) : Definition.Consists c := by
  obtain ⟨made, _⟩ := compiles_of_outcome compiled
  obtain ⟨⟨key', component⟩, hmem, _, compiles⟩ :=
    made.exists_left (Entries.mem_of_find?_eq_some hc)
  obtain ⟨definition, _, hcomponent⟩ := List.mem_flatMap.mp hmem
  exact compiles.consists (Definition.made_of_mem_components hcomponent)

end Document

/-- The field of a property takes the default of the property exactly if this conforms to it, and
leaves it as it is. -/
theorem Field.Declared.verdict_default {f : Field} (declared : f.Declared) {type : String}
    (htype : f.type = .str type) (htypes : type ∈ defaultTypes) {x : Value}
    (hx : f.options.find? "default" = some x) {nsid : String} {strict : Bool}
    {field : CompiledField} (hfield : (f.compile nsid strict).outcome = .ok field) (name : String)
    (required nullable : Bool) :
    let s := (Definition.CompiledProperty.of name f field required nullable).schema
    s.default? = some x ∧ ∀ (env : Surroundings) (store : Store),
      (f.Conforms x → ((Registry.verdict env s x).run store).1 = .ok (.ok x)) ∧
      (¬ f.Conforms x →
        ∃ failure, ((Registry.verdict env s x).run store).1 = .ok (.error failure)) := by
  intro s
  have proper : x ≠ .null := declared.default_ne_null htype htypes hx
  have known : type ∈ scalarTypes := mem_scalarTypes_of_defaultTypes htypes
  obtain ⟨accepted, refused⟩ := (Direct.scalar known htype declared).decides hfield
  have check (follow : Reference → Value → Path → Check Unit Value) :
      s.checkWith follow x [] = field.schema.checkWith follow x [] := by
    rw [Definition.CompiledProperty.checkWith_of, if_neg]
    intro null
    exact proper (Definition.isNull_eq_true_iff.mp (Bool.and_eq_true_iff.mp null).2)
  constructor
  · rw [Definition.CompiledProperty.default?_of, (compiles_of_outcome hfield).marks.1, default?,
      htype]
    dsimp only
    rw [if_pos htypes]
    exact option?_of_find? hx proper
  · intro env store
    rw [Registry.fst_run_verdict, Registry.normalized, check]
    constructor
    · intro conforms
      rw [Registry.verdictOf_eq_accepted_iff, accepted, normalizes_of_scalar known htype,
        normalizesTo_of_defaultTypes htypes]
      exact ⟨conforms, rfl⟩
    · intro unfit
      obtain ⟨verdict, hverdict⟩ := Registry.settled_iff_exists_verdictOf.mp (refused
        ((store.registry.meaning env).follow (store.registry.stepBound env x)) x [])
      cases verdict with
      | error failure => exact ⟨failure, hverdict⟩
      | ok n =>
        rw [Registry.verdictOf_eq_accepted_iff, accepted] at hverdict
        exact absurd hverdict.1 unfit

namespace Document

/-- **Defaults and their fields.** In a document that compiles, the field of every property with a
default takes the default exactly if it conforms to the field, and then leaves it as it is; what
else the field says is not compared with the default before. What a definition of the document has
made of a value is never refused when it is checked again, be it at once or when everything has been
loaded that the first check asked for, provided that in the definitions that are reached the fields
accept their defaults, the properties have names of their own, and no union leads to bytes through
references and unions alone. -/
theorem verdict_defaults {v : Value} {d : Document} (hd : ofValue v = .ok d) {strict : Bool}
    {definitions : Entries CompiledDefinition}
    (compiled : (d.compileAll strict).outcome = .ok definitions) (env : Surroundings) :
    (∀ key body typeName brand, (key, .object body typeName brand) ∈ d.components →
      ∀ name f, (name, f) ∈ body.properties.merge brand →
      ∀ type, f.type = .str type → type ∈ Field.defaultTypes →
      ∀ x, f.options.find? "default" = some x →
        ∃ c s, definitions.find? key = some c ∧ (name, s) ∈ c.schema.declared ∧
          s.default? = some x ∧ ∀ store : Store,
            (f.Conforms x → ((Registry.verdict env s x).run store).1 = .ok (.ok x)) ∧
            (¬ f.Conforms x →
              ∃ failure, ((Registry.verdict env s x).run store).1 = .ok (.error failure))) ∧
    ∀ store : Store, store.registry.Sound → ∀ key c, definitions.find? key = some c →
      (∀ c', Relation.ReflTransGen (store.registry.RefersOn env) c c' →
        store.registry.Lasts env c') →
      ∀ v n, ((Registry.verdict env c.schema v).run store).1 = .ok (.ok n) →
      ∀ later, later = store ∨ later = ((Registry.verdict env c.schema v).run store).2 →
      ∀ verdict, ((Registry.verdict env c.schema n).run later).1 = .ok verdict →
        ∃ m, verdict = .ok m := by
  constructor
  · intro key body typeName brand hmem name f hf type htype htypes x hx
    have declared := declared_of_mem_merge hd hmem hf
    obtain ⟨c, field, required, nullable, hc, hfield, hs⟩ := exists_declared compiled hmem hf
    obtain ⟨default, taken⟩ :=
      declared.verdict_default htype htypes hx hfield name required nullable
    exact ⟨c, _, hc, hs, default, taken env⟩
  · intro store sound key c hc lasts v n accepted later hlater verdict hverdict
    rw [Registry.fst_run_verdict, Registry.verdictOf_eq_accepted_iff] at accepted
    have again := Registry.noFailure_normalized sound (consists_of_compileAll compiled hc) lasts
      accepted
    have same : later.registry.normalized env c.schema n [] =
        store.registry.normalized env c.schema n [] := by
      rcases hlater with rfl | rfl
      · rfl
      · have answers := Registry.found_of_verdict env c.schema v store
        exact Registry.normalized_congr env (congrArg Lookup.ofBundles answers) c.schema n []
    rw [Registry.fst_run_verdict, same] at hverdict
    cases verdict with
    | ok m => exact ⟨m, rfl⟩
    | error failure => exact absurd (Registry.verdictOf_eq_refused_iff.mp hverdict) (again failure)

/-- Notes in English unless they say otherwise, with a part that is a note by itself: the default
fits its field, and what a note without a language is made into is accepted as it is. -/
theorem verdict_defaults_note :
    let v : Value := .object [("lexicon", .int 1), ("id", .str "com.example.note"),
      ("defs", .object [("main", .object [("type", .str "object"), ("properties", .object [
        ("lang", .object [("type", .str "string"), ("maxLength", .int 2), ("default", .str "en")]),
        ("part", .object [("type", .str "union"), ("refs", .list [.str "#main"])])])])])]
    ∃ d definitions c s n, ofValue v = .ok d ∧ (d.compileAll true).outcome = .ok definitions ∧
      definitions.find? "main" = some c ∧ ("lang", s) ∈ c.schema.declared ∧
      s.default? = some (.str "en") ∧
      ((Registry.verdict {} s (.str "en")).run (Registry.holding d)).1 = .ok (.ok (.str "en")) ∧
      ((Registry.verdict {} c.schema (.object [("part", .object [])])).run
        (Registry.holding d)).1 = .ok (.ok n) ∧
      ∃ m, ((Registry.verdict {} c.schema n).run (Registry.holding d)).1 = .ok (.ok m) := by
  intro v
  let lang : Field := { type := .str "string", options := [("maxLength", .int 2),
    ("default", .str "en")] }
  let part : Field := { type := .str "union", options := [("refs", .list [.str "#main"])] }
  let body : ObjectBody := { properties := [("lang", lang), ("part", part)] }
  let d : Document := ⟨"com.example.note", [("main", .object body)], .int 1, .null, .null, v⟩
  let s := Registry.holding d
  let target : Reference := ⟨"com.example.note", "main"⟩
  have hd : ofValue v = .ok d := by with_unfolding_all rfl
  -- what both halves need to know of the definition, wherever it comes from
  let fits (c : CompiledDefinition) : Prop :=
    c.schema.links = [.union [target]] ∧ c.schema.redirects = [] ∧
      c.type.properties.map (·.name) = ["lang", "part"] ∧
      (c.schema.declared.all fun e => e.2.default?.all fun x => decide (e.2.Accepts x)) = true
  have held : (s.registry.meaning {} target).toOption.any (fun c => decide (fits c)) = true := by
    decide +kernel
  obtain ⟨held, hheld, heldFits⟩ := (Option.any_eq_true _ _).mp held
  have evaluated : (d.compileAll true).outcome.toOption.any (fun definitions =>
      (definitions.find? "main").any fun c => decide (fits c) &&
        (((Registry.verdict {} c.schema (.object [("part", .object [])])).run s).1.toOption.bind
          Except.toOption).any fun n =>
            ((Registry.verdict {} c.schema n).run s).1.toOption.isSome) = true := by
    decide +kernel
  obtain ⟨definitions, compiled, evaluated⟩ := (Option.any_eq_true _ _).mp evaluated
  obtain ⟨c, hc, evaluated⟩ := (Option.any_eq_true _ _).mp evaluated
  obtain ⟨fit, evaluated⟩ := Bool.and_eq_true_iff.mp evaluated
  obtain ⟨n, accepted, evaluated⟩ := (Option.any_eq_true _ _).mp evaluated
  obtain ⟨again, hagain⟩ := Option.isSome_iff_exists.mp evaluated
  obtain ⟨first, hfirst, hn⟩ := Option.bind_eq_some_iff.mp accepted
  obtain rfl := Except.eq_ok_of_toOption_eq_some hn
  replace hheld := Except.eq_ok_of_toOption_eq_some hheld
  replace compiled := Except.eq_ok_of_toOption_eq_some compiled
  replace hfirst := Except.eq_ok_of_toOption_eq_some hfirst
  replace hagain := Except.eq_ok_of_toOption_eq_some hagain
  replace fit : fits c := of_decide_eq_true fit
  replace heldFits : fits held := of_decide_eq_true heldFits
  have avoids : s.registry.AvoidsBytes {} target := by
    apply Registry.avoidsBytes_of_meaning hheld heldFits.2.1
    intro bounds bytes
    have links := heldFits.1
    rw [bytes] at links
    cases links
  have lasts {c' : CompiledDefinition} (h : fits c') : s.registry.Lasts {} c' := by
    obtain ⟨links, -, names, defaults⟩ := h
    constructor
    · rw [names]
      decide
    · intro e he x hx
      have accepted := List.all_eq_true.mp defaults e he
      rw [hx] at accepted
      exact of_decide_eq_true accepted
    · intro targets htargets t ht
      rw [links, List.mem_singleton] at htargets
      cases htargets
      rw [List.mem_singleton.mp ht]
      exact avoids
  have reached : ∀ c', Relation.ReflTransGen (s.registry.RefersOn {}) c c' → fits c' := by
    intro c' chain
    induction chain with
    | refl => exact fit
    | tail _ next ih =>
      obtain ⟨link, hlink, t, ht, hc'⟩ := next
      rw [ih.1, List.mem_singleton] at hlink
      rw [hlink, Link.targets, List.mem_singleton] at ht
      rw [ht] at hc'
      rwa [← Except.ok.inj (hheld.symm.trans hc')]
  obtain ⟨default, second⟩ := verdict_defaults hd compiled {}
  obtain ⟨c', f, hc', hf, hx, taken⟩ := default "main" body (some target.text) []
    (.head _) "lang" lang (.head _) "string" rfl (by decide) (.str "en") rfl
  obtain rfl := Option.some.inj (hc'.symm.trans hc)
  have conforms : lang.Conforms (.str "en") := by
    have takes : lang.TakesText "en" := by
      constructor <;> simp [Field.AtLeast, Field.AtMost, lang, Entries.find?]
      decide
    simpa [Field.Conforms, Field.ConformsTo, Field.Chooses, lang, Entries.find?] using takes
  obtain ⟨m, rfl⟩ := second s (Registry.sound_holding d) "main" c' hc
    (fun c'' chain => lasts (reached c'' chain)) _ n hfirst s (.inl rfl) again hagain
  exact ⟨d, definitions, c', f, n, hd, compiled, hc, hf, hx, (taken s).1 conforms, hfirst, m,
    hagain⟩

/-- A default may be longer than its own field allows: the document compiles, the field refuses the
default, and what the definition makes of an empty object it refuses afterwards. -/
theorem not_verdict_default_short :
    let v : Value := .object [("lexicon", .int 1), ("id", .str "com.example.short"),
      ("defs", .object [("main", .object [("type", .str "object"), ("properties", .object [
        ("p", .object [("type", .str "string"), ("maxLength", .int 1),
          ("default", .str "abc")])])])])]
    ∃ d definitions c s n, ofValue v = .ok d ∧ (d.compileAll true).outcome = .ok definitions ∧
      definitions.find? "main" = some c ∧ ("p", s) ∈ c.schema.declared ∧
      s.default? = some (.str "abc") ∧
      (∃ failure, ((Registry.verdict {} s (.str "abc")).run (Registry.holding d)).1 =
        .ok (.error failure)) ∧
      ((Registry.verdict {} c.schema (.object [])).run (Registry.holding d)).1 = .ok (.ok n) ∧
      ∃ failure, ((Registry.verdict {} c.schema n).run (Registry.holding d)).1 =
        .ok (.error failure) := by
  intro v
  let refuses (d : Document) (s : Schema) (x : Value) : Bool :=
    ((Registry.verdict {} s x).run (Registry.holding d)).1.toOption.any fun verdict =>
      !verdict.isOk
  have exists_failure {d : Document} {s : Schema} {x : Value} (h : refuses d s x = true) :
      ∃ failure, ((Registry.verdict {} s x).run (Registry.holding d)).1 = .ok (.error failure) := by
    obtain ⟨verdict, given, refused⟩ := (Option.any_eq_true _ _).mp h
    cases verdict with
    | ok => cases refused
    | error failure => exact ⟨failure, Except.eq_ok_of_toOption_eq_some given⟩
  have evaluated : (ofValue v).toOption.any (fun d =>
      (d.compileAll true).outcome.toOption.any fun definitions =>
        (definitions.find? "main").any fun c =>
          (c.schema.declared.any fun e => e.1 == "p" && refuses d e.2 (.str "abc") &&
            e.2.default?.bind Value.str? == some "abc") &&
          (((Registry.verdict {} c.schema (.object [])).run (Registry.holding d)).1.toOption.bind
            Except.toOption).any fun n => refuses d c.schema n) = true := by
    decide +kernel
  obtain ⟨d, hd, evaluated⟩ := (Option.any_eq_true _ _).mp evaluated
  obtain ⟨definitions, compiled, evaluated⟩ := (Option.any_eq_true _ _).mp evaluated
  obtain ⟨c, hc, evaluated⟩ := (Option.any_eq_true _ _).mp evaluated
  obtain ⟨property, again⟩ := Bool.and_eq_true_iff.mp evaluated
  obtain ⟨⟨name, s⟩, hs, property⟩ := List.any_eq_true.mp property
  obtain ⟨property, hx⟩ := Bool.and_eq_true_iff.mp property
  obtain ⟨hname, refused⟩ := Bool.and_eq_true_iff.mp property
  obtain ⟨n, accepted, again⟩ := (Option.any_eq_true _ _).mp again
  obtain ⟨first, hfirst, hn⟩ := Option.bind_eq_some_iff.mp accepted
  obtain rfl := Except.eq_ok_of_toOption_eq_some hn
  obtain rfl : name = "p" := by simpa using hname
  have default : s.default? = some (.str "abc") := by
    obtain ⟨x, found, text⟩ := Option.bind_eq_some_iff.mp (beq_iff_eq.mp hx)
    rw [found, Value.eq_of_str?_eq_some text]
  exact ⟨d, definitions, c, s, n, Except.eq_ok_of_toOption_eq_some hd,
    Except.eq_ok_of_toOption_eq_some compiled, hc, hs, default, exists_failure refused,
    Except.eq_ok_of_toOption_eq_some hfirst, exists_failure again⟩

end Document

end Lexicon
