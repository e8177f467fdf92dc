import Lexicon.Proofs.Compile.Conforms
import Lexicon.Proofs.Schema.Idempotent

/-!
# Declared options

A document is read from what the schema of documents has made of a value. The schema looks at every
property of an object, so that the fields read from these are as it asks for; only what it does not
look at, such as the items of items, may be anything. Main statement: the properties of the objects
of any document are listed in its source in the same order, and say of themselves only what the
language declares for their types.
-/

namespace Lexicon

/-! ### What a schema makes of a value -/

namespace Schema

/-- A schema without references makes one value of another. -/
def Turns (s : Schema) (v n : Value) : Prop :=
  ∃ path, (s.checkWith unfollowed v path).outcome = .ok n

variable {s : Schema} {v n : Value}

@[simp] theorem turns_required_iff : (required s).Turns v n ↔ s.Turns v n := by
  simp only [Turns, checkWith]

/-- A map keeps the keys and their order. -/
theorem Turns.map {keys : Option Schema} (h : (Schema.map s keys).Turns v n) :
    ∃ es ms, v = .object es ∧ n = .object ms ∧
      List.Forall₂ (fun e m : String × Value => m.1 = e.1 ∧ s.Turns e.2 m.2) es ms := by
  obtain ⟨path, hn⟩ := h
  obtain ⟨es, ms, rfl, rfl, hms⟩ := forall₂_of_map hn
  exact ⟨es, ms, rfl, rfl, hms⟩

theorem Turns.tagged {tag : String} {variants : List (String × Schema)} {fallback : Option Schema}
    (h : (Schema.tagged tag variants fallback).Turns v n) :
    ∃ (es : Entries Value) (kind : Value) (s : Schema), v = .object es ∧
      es.find? tag = some kind ∧ Chooses variants fallback kind s ∧ s.Turns v n := by
  obtain ⟨path, hn⟩ := h
  rcases checkWith_tagged unfollowed tag variants fallback v path with
    ⟨_, _, failed⟩ | ⟨es, kind, s, hv, hkind, chosen, same⟩
  · rw [failed] at hn
    cases hn
  · rw [same] at hn
    exact ⟨es, kind, s, hv, hkind, chosen, path, hn⟩

/-- Each entry of a checked object is made by a declared field or by the schema of the others. -/
theorem Turns.object {fields : List (String × Schema)} {other : Schema}
    (plain : ∀ e ∈ fields, e.2.default? = none)
    (h : (Schema.object fields (some other) false).Turns v n) :
    ∃ es ms, v = .object es ∧ n = .object ms ∧ ∀ m ∈ ms, ∃ x, (m.1, x) ∈ es ∧
      ((∃ e ∈ fields, e.1 = m.1 ∧ e.2.Turns x m.2) ∨ other.Turns x m.2) := by
  obtain ⟨path, hn⟩ := h
  obtain ⟨es, parts, others, rfl, hparts, hothers, rfl⟩ := outcome_object_eq_ok_iff.mp hn
  refine ⟨es, _, rfl, rfl, ?_⟩
  intro m hm
  rcases List.mem_append.mp hm with hm | hm
  · obtain ⟨p, hp, rfl⟩ := List.mem_filterMap.mp hm
    obtain ⟨e, he, hpart⟩ := hparts.exists_left hp
    obtain ⟨x, hx, hy⟩ := exists_found_of_part (plain e he) hpart
    have key := key_of_part unfollowed hpart
    exact ⟨x, key ▸ Entries.mem_of_find?_eq_some hx, .inl ⟨e, he, key.symm, _, hy⟩⟩
  · obtain ⟨e, he, key, hy⟩ := hothers.exists_left hm
    exact ⟨e.2, key ▸ (List.mem_filter.mp he).1, .inr ⟨_, hy⟩⟩

/-- Under its key a declared field holds what it has made of the value there; a required one was
there. -/
structure TurnsFields (fields : List (String × Schema)) (es ms : Entries Value) : Prop where
  part : ∀ {key : String} {field : Schema} {y : Value}, (key, field) ∈ fields →
    field.default? = none → ms.find? key = some y → ∃ x, es.find? key = some x ∧ field.Turns x y
  present : ∀ {key : String} {field : Schema} {x : Value}, (key, field) ∈ fields →
    es.find? key = some x → ∃ y, ms.find? key = some y
  given : ∀ {key : String} {inner : Schema}, (key, .required inner) ∈ fields →
    inner.default? = none → ∃ x, es.find? key = some x

theorem Turns.fields {fields : List (String × Schema)} (hnodup : (Entries.keys fields).Nodup)
    (h : (Schema.fields fields).Turns v n) :
    ∃ es ms, v = .object es ∧ n = .object ms ∧ TurnsFields fields es ms := by
  obtain ⟨path, hn⟩ := h
  obtain ⟨es, parts, rfl, hparts, rfl⟩ := outcome_fields_eq_ok_iff.mp hn
  refine ⟨es, _, rfl, rfl, ?_, ?_, ?_⟩
  · intro key field y hfield plain hy
    obtain ⟨p, hp, held⟩ := find?_checked hparts hnodup hfield
    obtain ⟨e, rfl, rfl⟩ := Option.map_eq_some_iff.mp (held.symm.trans hy)
    obtain ⟨x, hx, hy'⟩ := exists_found_of_part plain hp
    exact ⟨x, hx, _, hy'⟩
  · intro key field x hfield hx
    obtain ⟨p, hp, held⟩ := find?_checked hparts hnodup hfield
    rw [part_of_found hx] at hp
    obtain ⟨y, -, rfl⟩ := Except.map_eq_ok_iff.mp hp
    exact ⟨y, held⟩
  · intro key inner hfield plain
    obtain ⟨p, hp, -⟩ := find?_checked hparts hnodup hfield
    have none_given : (Schema.required inner).default? = none := plain
    obtain ⟨x, _, hx, -, -⟩ := exists_found_of_required rfl none_given hp
    exact ⟨x, hx⟩

/-- The schemas of single values and of arrays of them. -/
inductive Simple : Schema → Prop
  | scalar {s : Schema} (h : s.Scalar) : Simple s
  | array {items : Schema} (h : items.Simple) (bounds : Bounds) : Simple (.array items bounds)
  | required {inner : Schema} (h : inner.Simple) : Simple (.required inner)

theorem Simple.idempotent (h : s.Simple) : s.Idempotent unfollowed := by
  induction h with
  | scalar h => exact h.idempotent
  | array _ bounds ih => exact ih.array bounds
  | required _ ih => exact ih.required

theorem Simple.accepts (h : s.Simple) (turned : s.Turns v n) : s.Accepts n := by
  obtain ⟨path, hn⟩ := turned
  exact accepts_of_outcome (h.idempotent hn)

end Schema

/-! ### The types of the language -/

namespace Language

open Schema (Simple Scalar Turns TurnsFields)

/-- Items apart, the fields are single values and arrays of them. -/
def AllSimple (fields : List (String × Schema)) : Prop :=
  ∀ e ∈ fields, e.1 ≠ "items" → e.2.Simple

theorem allSimple_nil : AllSimple [] := List.forall_mem_nil _

theorem allSimple_cons_iff {key : String} {s : Schema} {rest : List (String × Schema)} :
    AllSimple ((key, s) :: rest) ↔ (key ≠ "items" → s.Simple) ∧ AllSimple rest :=
  List.forall_mem_cons

theorem simple_text : Schema.text.Simple :=
  .scalar (.string _)

theorem simple_nonNegative : nonNegative.Simple :=
  .scalar (.integer _)

theorem simple_anyInteger : anyInteger.Simple :=
  .scalar (.integer _)

theorem simple_boolean : Schema.boolean.Simple :=
  .scalar .boolean

theorem simple_enum (values : List Value) : (Schema.enum values).Simple :=
  .scalar (.enum values)

theorem simple_texts : texts.Simple :=
  simple_text.array _

/-- What the language declares for the type of a field is simple, items apart. -/
theorem allSimple_options (name : String) : AllSimple (options (.str name)) := by
  have shapes : ∀ e ∈ fieldTypes, ∃ rest, e.2 = shape e.1 rest ∧ AllSimple rest := by
    simp only [fieldTypes, itemTypes, List.cons_append, List.nil_append, List.forall_mem_cons,
      booleanField, integerField, stringField, unknownField, referenceField, unionField, arrayField]
    refine ⟨⟨_, rfl, ?_⟩, ⟨_, rfl, ?_⟩, ⟨_, rfl, ?_⟩, ⟨_, rfl, ?_⟩, ⟨_, rfl, ?_⟩, ⟨_, rfl, ?_⟩,
      ⟨_, rfl, ?_⟩, ⟨_, rfl, ?_⟩, ⟨_, rfl, ?_⟩, ⟨_, rfl, ?_⟩, List.forall_mem_nil _⟩
    all_goals simp [lengths, allSimple_cons_iff, allSimple_nil, simple_text, simple_nonNegative,
      simple_anyInteger, simple_boolean, simple_enum, simple_texts, Simple.required, Simple.array]
  rintro ⟨key, s⟩ h
  obtain ⟨fields, extra, closed, hs, hfield⟩ := exists_of_mem_options h
  obtain ⟨rest, same, simple⟩ := shapes _ (Entries.mem_of_find?_eq_some hs)
  rw [(Schema.object.inj same).1] at hfield
  have named : Simple (.required (.literal (.str name))) :=
    .required (.scalar (.literal _))
  exact allSimple_cons_iff.mpr
    ⟨fun _ => named, allSimple_cons_iff.mpr ⟨fun _ => simple_text, simple⟩⟩ _ hfield

/-- A schema of objects with different keys that name a type. -/
def Names (name : String) (s : Schema) : Prop :=
  ∃ fields, s = .fields fields ∧ ("type", Schema.required (.literal (.str name))) ∈ fields ∧
    (Entries.keys fields).Nodup

theorem names_shape {name : String} {rest : List (String × Schema)}
    (nodup : ("type" :: "description" :: Entries.keys rest).Nodup) : Names name (shape name rest) :=
  ⟨_, rfl, List.mem_cons_self, nodup⟩

theorem names_fieldTypes : ∀ e ∈ fieldTypes, Names e.1 e.2 := by
  simp only [fieldTypes, itemTypes, List.cons_append, List.nil_append, List.forall_mem_cons]
  exact ⟨names_shape (by decide), names_shape (by decide), names_shape (by decide),
    names_shape (by decide), names_shape (by decide), names_shape (by decide),
    names_shape (by decide), names_shape (by decide), names_shape (by decide),
    names_shape (by decide), List.forall_mem_nil _⟩

theorem names_parameterTypes : ∀ e ∈ parameterTypes, Names e.1 e.2 := by
  simp only [parameterTypes, primitiveTypes, List.cons_append, List.nil_append,
    List.forall_mem_cons]
  exact ⟨names_shape (by decide), names_shape (by decide), names_shape (by decide),
    names_shape (by decide), names_shape (by decide), List.forall_mem_nil _⟩

theorem names_definitions : ∀ e ∈ mainTypes ++ valueTypes, Names e.1 e.2 := by
  rintro ⟨name, s⟩ he
  have main : ∀ e ∈ mainTypes, Names e.1 e.2 := by
    simp only [mainTypes, List.forall_mem_cons]
    exact ⟨names_shape (by decide), names_shape (by decide), names_shape (by decide),
      names_shape (by decide), List.forall_mem_nil _⟩
  rcases mem_definitionTypes_iff.mp he with he | he | ⟨rfl, rfl⟩ | ⟨rfl, rfl⟩
  · exact main _ he
  · exact names_fieldTypes _ he
  · exact names_shape (by decide)
  · exact names_shape (by decide)

/-- What is made of an object with a type by a schema that names the type names it as well. -/
theorem Names.turns {name : String} {s : Schema} (h : Names name s) {es : Entries Value}
    {kind n : Value} (hkind : es.find? "type" = some kind) (turned : s.Turns (.object es) n) :
    ∃ (fields : List (String × Schema)) (ms : Entries Value), s = .fields fields ∧
      n = .object ms ∧ ms.find? "type" = some (.str name) ∧ TurnsFields fields es ms := by
  obtain ⟨fields, rfl, htype, nodup⟩ := h
  obtain ⟨_, ms, ⟨⟩, rfl, parts⟩ := turned.fields nodup
  obtain ⟨y, hy⟩ := parts.present htype hkind
  obtain ⟨x, -, turned⟩ := parts.part htype rfl hy
  have simple : Simple (.literal (.str name)) := .scalar (.literal _)
  rw [simple.accepts (Schema.turns_required_iff.mp turned) |>.eq_str] at hy
  exact ⟨fields, ms, rfl, rfl, hy, parts⟩

end Language

/-! ### Fields -/

theorem Value.member_eq_ok_iff {es : Entries Value} {key : String} {x : Value} :
    (Value.object es).member key = .ok x ↔ es.find? key = some x := by
  rw [member]
  cases es.find? key <;> simp

namespace Field

open Schema (Turns TurnsFields)

/-- What is declared for a field other than its items is declared for its type. -/
theorem declared_of_turnsFields {fields : List (String × Schema)} {es ms : Entries Value}
    {name : String} {f : Field} (type : ms.find? "type" = some (.str name))
    (parts : TurnsFields fields es ms)
    (declares : ∀ e ∈ Language.options (.str name), e.1 ≠ "items" → e ∈ fields)
    (hf : ofValue (.object ms) = .ok f) : f.Declared := by
  simp only [ofValue, Value.member, type, Except.ok_bind, Except.bind_eq_ok_iff] at hf
  obtain ⟨items, _, hf⟩ := hf
  rw [← Except.ok.inj hf]
  intro key s y hs hy
  let own := ["type", "items", "description"]
  have found : Entries.find? (ms.filter fun e => e.1 ∉ own) key =
      if key ∉ own then ms.find? key else none := by
    rw [Entries.find?_filter (fun k => decide (k ∉ own))]
    simp only [decide_eq_true_eq]
  rw [found] at hy
  split_ifs at hy with hkey
  have other : key ≠ "items" := by
    rintro rfl
    exact hkey (by simp [own])
  obtain ⟨x, -, turned⟩ := parts.part (declares _ hs other) (Language.default?_of_mem_options hs) hy
  exact (Language.allSimple_options name _ hs other).accepts turned

theorem declared_of_turns {v n : Value} {f : Field} (h : Language.field.Turns v n)
    (hf : ofValue n = .ok f) : f.Declared := by
  obtain ⟨es, kind, s, rfl, hkind, chosen, turned⟩ := h.tagged
  cases chosen with
  | @variant name _ hname hs =>
    have names := Language.names_fieldTypes _ (Entries.mem_of_find?_eq_some hs)
    obtain ⟨fields, ms, rfl, rfl, type, parts⟩ := names.turns hkind turned
    refine declared_of_turnsFields type parts ?_ hf
    intro e he _
    exact Language.options_of_find? hs ▸ he
  | fallback unknown hs =>
    rw [← Option.some.inj hs] at turned
    obtain ⟨_, ms, ⟨⟩, rfl, parts⟩ := turned.fields (by decide)
    obtain ⟨y, hy⟩ := parts.present List.mem_cons_self hkind
    obtain ⟨x, hx, text⟩ := parts.part List.mem_cons_self rfl hy
    obtain ⟨path, text⟩ := Schema.turns_required_iff.mp text
    obtain ⟨rfl, -⟩ := (Schema.Scalar.string _).accepted text
    obtain rfl := Option.some.inj (hkind.symm.trans hx)
    obtain ⟨name, rfl⟩ := (Schema.accepts_of_outcome text).exists_str
    refine declared_of_turnsFields hy parts ?_ hf
    intro e he _
    rw [Language.options_of_unknown unknown] at he
    cases he

theorem declared_of_parameter {v n : Value} {f : Field} (h : Language.parameter.Turns v n)
    (hf : ofValue n = .ok f) : f.Declared := by
  obtain ⟨es, kind, s, rfl, hkind, chosen, turned⟩ := h.tagged
  cases chosen with
  | @variant name _ hname hs =>
    have names := Language.names_parameterTypes _ (Entries.mem_of_find?_eq_some hs)
    obtain ⟨fields, ms, rfl, rfl, type, parts⟩ := names.turns hkind turned
    obtain ⟨_, ⟨⟩, declares⟩ := Language.declares_of_parameterTypes hs
    exact declared_of_turnsFields type parts declares hf
  | fallback _ hs => cases hs

end Field

/-! ### Objects -/

/-- Properties are those that a value lists at a place, in the same order, and say of themselves
only what is declared. -/
def ListedAt (v : Value) (place : Path) (ps : Entries Field) : Prop :=
  ∃ es, Path.follow? (place ++ [.key "properties"]) v = some (.object es) ∧
    List.Forall₂ (fun e p : String × _ => p.1 = e.1 ∧ p.2.Declared) es ps

theorem ListedAt.under {v x : Value} {place : Path} {ps : Entries Field} (h : ListedAt x place ps)
    (way : Path) (hway : Path.follow? way v = some x) : ListedAt v (way ++ place) ps := by
  obtain ⟨es, found, listed⟩ := h
  refine ⟨es, ?_, listed⟩
  rw [List.append_assoc, Path.follow?_append, hway, Option.bind_some, found]

theorem ListedAt.declared {v : Value} {place : Path} {ps : Entries Field}
    (h : ListedAt v place ps) : ∀ p ∈ ps, p.2.Declared := by
  obtain ⟨_, -, listed⟩ := h
  intro p hp
  obtain ⟨_, -, -, declared⟩ := listed.exists_left hp
  exact declared

/-- The properties of an object say of themselves only what is declared. -/
def ObjectBody.Declared (body : ObjectBody) : Prop :=
  ∀ e ∈ body.properties, e.2.Declared

/-- The properties of a component say of themselves only what is declared, if it is an object. -/
def Definition.Component.Declared : Component → Prop
  | .object body _ _ => body.Declared
  | _ => True

/-- The properties of the schema of a body, if it is an object. -/
def BodySchema.properties? : BodySchema → Option (Entries Field)
  | .object body => some body.properties
  | .field _ => none

theorem propertiesOf_eq_ok_iff {es : Entries Value} {ps : Entries Field} :
    propertiesOf es = .ok ps ↔
      ∃ properties, (es.find? "properties").getD (.object []) = .object properties ∧
        List.Forall₂ (fun e p : String × _ => p.1 = e.1 ∧ Field.ofValue e.2 = .ok p.2)
          properties ps := by
  simp only [propertiesOf, Except.bind_eq_ok_iff, Value.entries_eq_ok_iff, Entries.mapM_eq_ok_iff]

theorem listedAt_of_propertiesOf {fields : List (String × Schema)} {s : Schema}
    {es ms : Entries Value} {ps : Entries Field} (parts : Schema.TurnsFields fields es ms)
    (hfield : ("properties", .required (.map s none)) ∈ fields)
    (each : ∀ {x y : Value} {f : Field}, s.Turns x y → Field.ofValue y = .ok f → f.Declared)
    (h : propertiesOf ms = .ok ps) : ListedAt (.object es) [] ps := by
  obtain ⟨x, hx⟩ := parts.given hfield rfl
  obtain ⟨y, hy⟩ := parts.present hfield hx
  obtain ⟨x', hx', turned⟩ := parts.part hfield rfl hy
  obtain rfl := Option.some.inj (hx.symm.trans hx')
  obtain ⟨given, made, rfl, rfl, members⟩ := (Schema.turns_required_iff.mp turned).map
  obtain ⟨properties, hproperties, read⟩ := propertiesOf_eq_ok_iff.mp h
  rw [hy] at hproperties
  obtain rfl := Value.object.inj hproperties
  refine ⟨given, by simp [Path.follow?, hx], members.comp read ?_⟩
  rintro e m - p ⟨key, turned⟩ ⟨key', hf⟩
  exact ⟨key'.trans key, each turned hf⟩

theorem ObjectBody.listed_of_turns {v n : Value} {body : ObjectBody}
    (h : Language.objectDefinition.Turns v n) (hbody : ofValue n = .ok body) :
    ListedAt v [] body.properties := by
  obtain ⟨es, ms, rfl, rfl, parts⟩ := Schema.Turns.fields (by decide) h
  simp only [ofValue, Value.entries, Except.ok_bind, Except.bind_eq_ok_iff] at hbody
  obtain ⟨properties, hproperties, _, _, _, _, hbody⟩ := hbody
  rw [← Except.ok.inj hbody]
  exact listedAt_of_propertiesOf parts (List.mem_cons_of_mem _ (List.mem_cons_of_mem _
    List.mem_cons_self)) Field.declared_of_turns hproperties

theorem Parameters.listed_of_turns {v n : Value} {p : Parameters}
    (h : Language.parameters.Turns v n) (hp : ofValue n = .ok p) :
    ListedAt v [] p.properties := by
  obtain ⟨es, ms, rfl, rfl, parts⟩ := Schema.Turns.fields (by decide) h
  simp only [ofValue, Value.entries, Except.ok_bind, Except.bind_eq_ok_iff] at hp
  obtain ⟨properties, hproperties, _, _, hp⟩ := hp
  rw [← Except.ok.inj hp]
  exact listedAt_of_propertiesOf parts (List.mem_cons_of_mem _ (List.mem_cons_of_mem _
    List.mem_cons_self)) Field.declared_of_parameter hproperties

/-- What is an object among the schemas of bodies was made by the schema of objects. -/
theorem Language.turns_objectDefinition {v n type : Value} (h : bodySchema.Turns v n)
    (htype : n.member "type" = .ok type) (object : type.same (.str "object") = true) :
    objectDefinition.Turns v n := by
  obtain ⟨es, kind, s, rfl, hkind, chosen, turned⟩ := h.tagged
  cases chosen with
  | @variant name _ hname hs =>
    have mem := Entries.mem_of_find?_eq_some hs
    simp only [List.mem_cons, Prod.mk.injEq, List.not_mem_nil, or_false] at mem
    rcases mem with ⟨rfl, rfl⟩ | field
    · exact turned
    · have names : Names name s := by
        rcases field with ⟨rfl, rfl⟩ | ⟨rfl, rfl⟩ <;> exact names_shape (by decide)
      obtain ⟨_, ms, -, rfl, named, -⟩ := names.turns hkind turned
      obtain rfl := Option.some.inj (named.symm.trans (Value.member_eq_ok_iff.mp htype))
      rcases field with ⟨rfl, -⟩ | ⟨rfl, -⟩ <;> simp [Value.same] at object
  | fallback _ hs => cases hs

theorem BodySchema.listed_of_turns {v n : Value} {b : BodySchema}
    (h : Language.bodySchema.Turns v n) (hb : ofValue n = .ok b) :
    ∀ ps, b.properties? = some ps → ListedAt v [] ps := by
  obtain ⟨type, htype, hb⟩ := Except.bind_eq_ok_iff.mp hb
  split_ifs at hb with object
  · obtain ⟨body, hbody, hb⟩ := Except.bind_eq_ok_iff.mp hb
    obtain rfl := Except.ok.inj hb
    rintro ps ⟨⟩
    exact ObjectBody.listed_of_turns (Language.turns_objectDefinition h htype object) hbody
  · obtain ⟨f, _, hb⟩ := Except.bind_eq_ok_iff.mp hb
    obtain rfl := Except.ok.inj hb
    nofun

/-- A part that was read stands under its key. -/
theorem exists_of_partOf {α : Type} {read : Value → Except Fault α} {ms : Entries Value}
    {key : String} {a : α} (h : partOf read ms key = .ok (some a)) :
    ∃ y, ms.find? key = some y ∧ read y = .ok a := by
  unfold partOf Entries.getValue at h
  cases hy : Entries.find? ms key with
  | none =>
    rw [hy] at h
    cases h
  | some y =>
    rw [hy] at h
    cases hpresent : (Value.ofOption (some y)).present? with
    | none =>
      rw [hpresent] at h
      cases h
    | some y' =>
      rw [hpresent, Option.mapM_some] at h
      obtain ⟨a', ha, h⟩ := Except.map_eq_ok_iff.mp h
      rw [← Field.present?_eq_some hpresent] at ha
      rw [← Option.some.inj h]
      exact ⟨y, rfl, ha⟩

/-- A schema of objects that may have the schema of a body. -/
def Language.HasSchema (s : Schema) : Prop :=
  ∃ fields, s = .fields fields ∧ ("schema", bodySchema) ∈ fields ∧ (Entries.keys fields).Nodup

theorem Language.hasSchema_body : HasSchema body :=
  ⟨_, rfl, by simp, by decide⟩

theorem Language.hasSchema_message : HasSchema message :=
  ⟨_, rfl, by simp, by decide⟩

theorem Body.listed_of_turns {s : Schema} {v n : Value} {b : Body} (hs : Language.HasSchema s)
    (h : s.Turns v n) (hb : ofValue n = .ok b) :
    ∀ schema, b.schema = some schema → ∀ ps, schema.properties? = some ps →
      ListedAt v [.key "schema"] ps := by
  intro schema hschema ps hps
  obtain ⟨fields, rfl, hfield, nodup⟩ := hs
  obtain ⟨es, ms, rfl, rfl, parts⟩ := h.fields nodup
  simp only [ofValue, Value.entries, Except.ok_bind, Except.bind_eq_ok_iff] at hb
  obtain ⟨schema?, read, hb⟩ := hb
  rw [← Except.ok.inj hb] at hschema
  obtain rfl : schema? = some schema := hschema
  obtain ⟨y, hy, read⟩ := exists_of_partOf read
  obtain ⟨x, hx, turned⟩ := parts.part hfield rfl hy
  exact (BodySchema.listed_of_turns turned read ps hps).under [.key "schema"]
    (by simp [Path.follow?, hx])

/-! ### Definitions and documents -/

namespace Definition

/-- The objects of a call, each with the way to it from the call. -/
def callObjects (call : Call) (bodies : List (String × Option Body)) :
    List (Path × Entries Field) :=
  let parameters := call.parameters.map fun p => ([.key "parameters"], p.properties)
  parameters.toList ++ bodies.filterMap fun b =>
    b.2.bind fun body => body.schema.bind fun schema =>
      schema.properties?.map fun ps => ([.key b.1, .key "schema"], ps)

/-- The objects of a definition: the way to each from the definition, and its properties. -/
def objects (d : Definition) : List (Path × Entries Field) :=
  match d with
  | .record body _ _ => [([.key "record"], body.properties)]
  | .object body => [([], body.properties)]
  | .query call _ | .procedure call _ _ | .subscription call _ => callObjects call d.bodies
  | .token _ | .field _ => []

theorem mem_callObjects_of_parameters {call : Call} {p : Parameters}
    (hp : call.parameters = some p) (bodies : List (String × Option Body)) :
    ([.key "parameters"], p.properties) ∈ callObjects call bodies := by
  simp [callObjects, hp]

theorem mem_callObjects_of_body {call : Call} {bodies : List (String × Option Body)}
    {b : String × Option Body} (hb : b ∈ bodies) {body : Body} (hbody : b.2 = some body)
    {schema : BodySchema} (hschema : body.schema = some schema) {ps : Entries Field}
    (hps : schema.properties? = some ps) :
    ([.key b.1, .key "schema"], ps) ∈ callObjects call bodies := by
  refine List.mem_append_right _ (List.mem_filterMap.mpr ⟨b, hb, ?_⟩)
  rw [hbody, Option.bind_some, hschema, Option.bind_some, hps, Option.map_some]

/-- A component says only what is declared if the objects of its definition do. -/
theorem declared_of_objects {d : Definition} (h : ∀ o ∈ d.objects, ∀ p ∈ o.2, p.2.Declared)
    (nsid key : String) : ∀ e ∈ d.components nsid key, e.2.Declared := by
  have call {call : Call} (hcall : d.call? = some call)
      (same : d.objects = callObjects call d.bodies) :
      ∀ e ∈ d.components nsid key, e.2.Declared := by
    rw [same] at h
    refine forall_components_of_call hcall (fun _ => trivial) ?_ nsid key
    apply forall_parts (P := fun b => (Component.ofPart b).Declared)
    · exact fun p hp => h _ (mem_callObjects_of_parameters hp _)
    · intro b hb body hbody schema hschema
      cases schema with
      | object => exact h _ (mem_callObjects_of_body hb hbody hschema rfl)
      | field => trivial
  intro e he
  cases d with
  | record | object =>
    rw [List.mem_singleton.mp he]
    exact h _ List.mem_cons_self
  | query | procedure | subscription => exact call rfl rfl e he
  | token | field =>
    rw [List.mem_singleton.mp he]
    trivial

/-- The parameters of a call and its bodies are read from what their schemas have made. -/
theorem listed_of_call {call : Call} {bodies : List (String × Option Body)}
    {fields : List (String × Schema)} {es ms : Entries Value}
    (parts : Schema.TurnsFields fields es ms)
    (parameters : ("parameters", Language.parameters) ∈ fields)
    (hparameters : partOf Parameters.ofValue ms "parameters" = .ok call.parameters)
    (read : ∀ b ∈ bodies, partOf Body.ofValue ms b.1 = .ok b.2 ∧
      ∃ s, (b.1, s) ∈ fields ∧ Language.HasSchema s ∧ s.default? = none) :
    ∀ o ∈ callObjects call bodies, ListedAt (.object es) o.1 o.2 := by
  intro o ho
  rcases List.mem_append.mp ho with ho | ho
  · obtain ⟨p, hp, rfl⟩ := Option.map_eq_some_iff.mp (Option.mem_toList.mp ho)
    rw [hp] at hparameters
    obtain ⟨y, hy, hparameters⟩ := exists_of_partOf hparameters
    obtain ⟨x, hx, turned⟩ := parts.part parameters rfl hy
    exact (Parameters.listed_of_turns turned hparameters).under [.key "parameters"]
      (by simp [Path.follow?, hx])
  · obtain ⟨b, hb, ho⟩ := List.mem_filterMap.mp ho
    obtain ⟨body, hbody, ho⟩ := Option.bind_eq_some_iff.mp ho
    obtain ⟨schema, hschema, ho⟩ := Option.bind_eq_some_iff.mp ho
    obtain ⟨ps, hps, rfl⟩ := Option.map_eq_some_iff.mp ho
    obtain ⟨hpart, s, hfield, hs, plain⟩ := read b hb
    rw [hbody] at hpart
    obtain ⟨y, hy, hpart⟩ := exists_of_partOf hpart
    obtain ⟨x, hx, turned⟩ := parts.part hfield plain hy
    exact (Body.listed_of_turns hs turned hpart schema hschema ps hps).under [.key b.1]
      (by simp [Path.follow?, hx])

/-- The objects of a record or a call are listed in its source. -/
theorem listed_of_mainTypes {fields : List (String × Schema)} {es ms : Entries Value}
    {name : String} {d : Definition} (main : (name, Schema.fields fields) ∈ Language.mainTypes)
    (type : ms.find? "type" = some (.str name)) (parts : Schema.TurnsFields fields es ms)
    (hd : ofValue (.object ms) = .ok d) : ∀ o ∈ d.objects, ListedAt (.object es) o.1 o.2 := by
  simp only [Language.mainTypes, List.mem_cons, Prod.mk.injEq, List.not_mem_nil, or_false] at main
  rcases main with ⟨rfl, same⟩ | ⟨rfl, same⟩ | ⟨rfl, same⟩ | ⟨rfl, same⟩
  all_goals
    obtain ⟨rfl, -⟩ := Schema.object.inj same
    simp only [ofValue, Value.member_eq_ok_iff.mpr type, Value.entries, Except.ok_bind,
      Except.bind_eq_ok_iff, Value.member_eq_ok_iff] at hd
  · obtain ⟨record, hrecord, body, hbody, hd⟩ := hd
    rw [← Except.ok.inj hd]
    obtain ⟨x, hx, turned⟩ := parts.part
      (show ("record", Schema.required Language.objectDefinition) ∈ _ by simp) rfl hrecord
    refine List.forall_mem_singleton.mpr ?_
    exact (ObjectBody.listed_of_turns (Schema.turns_required_iff.mp turned) hbody).under
      [.key "record"] (by simp [Path.follow?, hx])
  · obtain ⟨parameters, hparameters, output, houtput, errors, _, hd⟩ := hd
    rw [← Except.ok.inj hd]
    refine listed_of_call parts (by simp) hparameters ?_
    simp only [bodies, List.forall_mem_cons]
    exact ⟨⟨houtput, _, by simp, Language.hasSchema_body, rfl⟩, List.forall_mem_nil _⟩
  · obtain ⟨parameters, hparameters, input, hinput, output, houtput, errors, _, hd⟩ := hd
    rw [← Except.ok.inj hd]
    refine listed_of_call parts (by simp) hparameters ?_
    simp only [bodies, List.forall_mem_cons]
    exact ⟨⟨hinput, _, by simp, Language.hasSchema_body, rfl⟩,
      ⟨houtput, _, by simp, Language.hasSchema_body, rfl⟩, List.forall_mem_nil _⟩
  · obtain ⟨parameters, hparameters, message, hmessage, errors, _, hd⟩ := hd
    rw [← Except.ok.inj hd]
    refine listed_of_call parts (by simp) hparameters ?_
    simp only [bodies, List.forall_mem_cons]
    exact ⟨⟨hmessage, _, by simp, Language.hasSchema_message, rfl⟩, List.forall_mem_nil _⟩

theorem listed_of_turns {es : Entries Value} {kind n : Value} {name : String} {s : Schema}
    {d : Definition} (hkind : es.find? "type" = some kind)
    (hs : (name, s) ∈ Language.mainTypes ++ Language.valueTypes)
    (turned : s.Turns (.object es) n) (hd : ofValue n = .ok d) :
    ∀ o ∈ d.objects, ListedAt (.object es) o.1 o.2 := by
  obtain ⟨fields, ms, rfl, rfl, type, parts⟩ :=
    (Language.names_definitions _ hs).turns hkind turned
  rcases Language.mem_definitionTypes_iff.mp hs with main | field | ⟨rfl, object⟩ | ⟨rfl, -⟩
  · exact listed_of_mainTypes main type parts hd
  · rw [ofValue_of_fieldTypes (Entries.mem_keys_of_mem field) type] at hd
    obtain ⟨f, _, rfl⟩ := Except.map_eq_ok_iff.mp hd
    exact List.forall_mem_nil _
  · rw [object] at turned
    simp only [ofValue, Value.member, type, Value.entries, Except.ok_bind,
      Except.bind_eq_ok_iff] at hd
    obtain ⟨body, hbody, hd⟩ := hd
    rw [← Except.ok.inj hd]
    exact List.forall_mem_singleton.mpr (ObjectBody.listed_of_turns turned hbody)
  · simp only [ofValue, Value.member, type, Value.entries, Except.ok_bind] at hd
    rw [← Except.ok.inj hd]
    exact List.forall_mem_nil _

end Definition

namespace Document

theorem ReadFrom.turned {es checked made : Entries Value} {d : Document}
    (h : ReadFrom es checked made d) :
    ∃ given, es.find? "defs" = some given ∧ definitionsSchema.Turns given (.object made) := by
  have turned : Language.document.Turns (.object es) (.object checked) :=
    ⟨[], Schema.outcome_of_plainVerdict h.verdict⟩
  obtain ⟨_, _, ⟨⟩, ⟨⟩, parts⟩ := Schema.Turns.fields (by decide) turned
  exact parts.part (show ("defs", definitionsSchema) ∈ _ by simp [definitionsSchema]) rfl
    (Value.member_eq_ok_iff.mp h.defs)

/-- The definitions of a document are read, one by one, from what their schema has made of the
entry `defs` of its source. -/
theorem exists_definitions_of_ofValue {v : Value} {d : Document} (h : ofValue v = .ok d) :
    ∃ given made, Path.follow? [.key "defs"] v = some given ∧
      definitionsSchema.Turns given (.object made) ∧
      List.Forall₂ (fun e p : String × _ => p.1 = e.1 ∧ Definition.ofValue e.2 = .ok p.2)
        made d.definitions := by
  cases v with
  | object es =>
    obtain ⟨checked, made, read⟩ := exists_readFrom_of_ofEntries h
    obtain ⟨given, found, turned⟩ := read.turned
    exact ⟨given, made, by simp [Path.follow?, found], turned, read.each⟩
  | _ => cases h

/-- Each definition is what the schema of its type has made of an object under its name. Only the
main one can be of a type that no other definition has. -/
theorem exists_turns_of_mem {given : Value} {made : Entries Value}
    (turned : definitionsSchema.Turns given (.object made)) {e : String × Value} (he : e ∈ made) :
    ∃ (es : Entries Value) (kind : Value) (name : String) (s : Schema),
      es.find? "type" = some kind ∧ (name, s) ∈ Language.mainTypes ++ Language.valueTypes ∧
        (e.1 = mainKey ∨ (name, s) ∈ Language.valueTypes) ∧ s.Turns (.object es) e.2 ∧
        ∃ listed, given = .object listed ∧ (e.1, .object es) ∈ listed := by
  obtain ⟨listed, _, rfl, ⟨⟩, members⟩ :=
    (Schema.turns_required_iff.mp turned).object (by simp [Schema.default?])
  obtain ⟨x, hx, turned⟩ := members e he
  have tagged : ∃ variants, variants ⊆ Language.mainTypes ++ Language.valueTypes ∧
      (e.1 = mainKey ∨ variants ⊆ Language.valueTypes) ∧
      (Schema.tagged "type" variants none).Turns x e.2 := by
    rcases turned with ⟨main, hmain, hkey, turned⟩ | turned
    · rw [List.mem_singleton.mp hmain] at hkey turned
      exact ⟨_, List.Subset.refl _, .inl hkey.symm, turned⟩
    · exact ⟨_, List.subset_append_right _ _, .inr (List.Subset.refl _), turned⟩
  obtain ⟨variants, among, place, turned⟩ := tagged
  obtain ⟨es, kind, s, rfl, hkind, chosen, turned⟩ := turned.tagged
  cases chosen with
  | variant _ hs =>
    have mem := Entries.mem_of_find?_eq_some hs
    exact ⟨es, kind, _, s, hkind, among mem, place.imp_right fun h => h mem, turned, listed, rfl,
      hx⟩
  | fallback _ hs => cases hs

/-- A definition of a document is read from what the schema of its type has made of an object that
its source lists under its name. -/
theorem exists_turns_of_ofValue {v : Value} {d : Document} (h : ofValue v = .ok d)
    {p : String × Definition} (hp : p ∈ d.definitions) :
    ∃ (es : Entries Value) (kind n : Value) (name : String) (s : Schema),
      es.find? "type" = some kind ∧ (name, s) ∈ Language.mainTypes ++ Language.valueTypes ∧
        (p.1 = mainKey ∨ (name, s) ∈ Language.valueTypes) ∧
        s.Turns (.object es) n ∧ Definition.ofValue n = .ok p.2 ∧
        ∃ given, Path.follow? [.key "defs"] v = some (.object given) ∧
          (p.1, .object es) ∈ given := by
  obtain ⟨given, made, found, all, read⟩ := exists_definitions_of_ofValue h
  obtain ⟨⟨_, n⟩, he, key, hread⟩ := read.exists_left hp
  obtain rfl : _ = p.1 := key.symm
  obtain ⟨es, kind, name, s, hkind, hs, place, turned, listed, rfl, mem⟩ :=
    exists_turns_of_mem all he
  exact ⟨es, kind, n, name, s, hkind, hs, place, turned, hread, listed, found, mem⟩

/-- **Properties say only what is declared.** Whatever value a document is read from, the
properties of its objects are in the form that the language declares for their types. -/
theorem declared_of_ofValue {v : Value} {d : Document} (h : ofValue v = .ok d) :
    ∀ e ∈ d.components, e.2.Declared := by
  intro e he
  obtain ⟨made, hmade, he⟩ := List.mem_flatMap.mp he
  obtain ⟨es, kind, n, name, s, hkind, hs, -, turned, read, -⟩ := exists_turns_of_ofValue h hmade
  have listed := Definition.listed_of_turns hkind hs turned read
  exact Definition.declared_of_objects (fun o ho => (listed o ho).declared) d.id made.1 e he

end Document

end Lexicon
