import Lexicon.Proofs.Record.RoundTrip

/-!
# Schemas and their types

The schema and the type of a field are compiled together: where the type leads to records, by the
items of an array, by a reference or by a union, the schema follows the same way; by every other
type no part of a value becomes a record. Main statement: of what the schema of an object accepts a
record can be made, if something can be made of the value of each property.
-/

namespace Lexicon

/-- A schema and a type that lead to the same references. -/
inductive Schema.Typed : Schema → FieldType → Prop
  | plain {s : Schema} {t : FieldType} (plain : t.IsPlain) : Typed s t
  | array {s : Schema} {t : FieldType} (items : Typed s t) (bounds : Bounds) :
      Typed (.array s bounds) (.array t)
  | ref (target : Reference) : Typed (.ref target) (.ref target)
  | union (targets : List Reference) : Typed (.union targets) (.union targets)

namespace Field

variable {nsid : String} {strict : Bool} {f : Field} {c : CompiledField}

/-- What a field compiles to is a schema with its type. -/
theorem Compiles.typed (h : Compiles nsid strict f c) : c.schema.Typed c.type := by
  induction h with
  | array _ ih => exact .array ih _
  | string => exact .plain (isPlain_string _ _)
  | boolean => exact .plain isPlain_boolean
  | integer => exact .plain isPlain_integer
  | ref => exact .ref _
  | union => exact .union _
  | blob | bytes | cidLink | unknown | unrecognized =>
    exact .plain (FieldType.isPlain_of_core (by simp [FieldType.core]) fun _ => rfl)

/-- Only fields whose values stay as they are have a default. -/
theorem Compiles.isPlain_of_default (h : Compiles nsid strict f c) {d : Value}
    (hd : c.schema.default? = some d) : c.type.IsPlain := by
  cases h with
  | string => exact isPlain_string _ _
  | boolean => exact isPlain_boolean
  | integer => exact isPlain_integer
  | _ => simp [Schema.default?, compileArray, blobSchema, linkSchema, Schema.fields] at hd

end Field

namespace Definition

/-- A property whose schema has the type of the property; it only has a default if its values stay
as they are. -/
inductive PropertyTyped : CompiledProperty → Prop
  | of {name : String} {field : Field} {compiled : CompiledField} {required nullable : Bool}
      (typed : compiled.schema.Typed compiled.type)
      (optional : compiled.schema.isRequired = false)
      (plain : ∀ d, compiled.schema.default? = some d → compiled.type.IsPlain) :
      PropertyTyped (.of name field compiled required nullable)

/-- A compiled definition that records are made of, by the properties that its schema, its type and
its record type have in common. -/
structure ObjectTyped (properties : List CompiledProperty) (typeName : Option String)
    (c : CompiledDefinition) (t : RecordType) : Prop where
  schema_eq : c.schema = .fields (fieldsOf properties)
  type_eq : c.type = .object (properties.map (·.property))
  built : t.BuiltFrom c.nsid c.key (properties.map (·.rule)) typeName
  typed : ∀ p ∈ properties, PropertyTyped p

theorem PropertyTyped.key_eq {p : CompiledProperty} (h : PropertyTyped p) :
    p.rule.key = p.property.name := by
  cases h
  rfl

theorem PropertyTyped.required_eq {p : CompiledProperty} (h : PropertyTyped p) :
    p.rule.required = p.schema.isRequired := by
  cases h with
  | of _ optional => exact (CompiledProperty.isRequired_of optional).symm

/-- A compiled definition that has records is an object of properties, each of which has what every
property of a compiled field and every field of a call have. -/
theorem Component.Compiles.exists_compiledProperties {nsid key : String} {strict : Bool}
    {component : Component} {c : CompiledDefinition} (h : component.Compiles nsid key strict c)
    (made : component.Made nsid) {t : RecordType} (ht : c.recordType = some t)
    {Q : CompiledProperty → Prop}
    (field : ∀ name f compiled required nullable, Field.Compiles nsid strict f compiled →
      Q (.of name f compiled required nullable))
    (reference : ∀ key required, Q (partField nsid key required)) (raw : Q rawInputField) :
    ∃ properties typeName, c.schema = .fields (fieldsOf properties) ∧
      c.type = .object (properties.map (·.property)) ∧
      t.BuiltFrom c.nsid c.key (properties.map (·.rule)) typeName ∧ ∀ p ∈ properties, Q p := by
  cases h with
  | @object _ typeName _ _ compiled _ _ h =>
    obtain rfl := Option.some.inj (ht.symm.trans h.recordType_eq)
    refine ⟨compiled, typeName, h.schema_eq, h.type_eq, ?_, fun p hp => ?_⟩
    · rw [h.nsid_eq, h.key_eq]
      exact RecordType.builtFrom_of_build h.build
    · obtain ⟨e, _, f, hf, rfl⟩ := h.properties.exists_left hp
      exact field _ _ _ _ _ (Field.compiles_of_outcome hf)
  | call build =>
    obtain rfl := Option.some.inj ht
    cases made with
    | call d call partKeys =>
      refine ⟨callFields nsid d call partKeys, none, rfl, rfl,
        RecordType.builtFrom_of_build build, fun p hp => ?_⟩
      rcases mem_callFields hp with ⟨key, _, required, rfl⟩ | rfl
      · exact reference key required
      · exact raw
  | _ => simp at ht

/-- A compiled definition that has records is an object with typed properties. -/
theorem Component.Compiles.exists_objectTyped {nsid key : String} {strict : Bool}
    {component : Component} {c : CompiledDefinition} (h : component.Compiles nsid key strict c)
    (made : component.Made nsid) {t : RecordType} (ht : c.recordType = some t) :
    ∃ properties typeName, ObjectTyped properties typeName c t := by
  obtain ⟨properties, typeName, schema_eq, type_eq, built, typed⟩ :=
    h.exists_compiledProperties made ht (Q := PropertyTyped)
      (fun _ _ _ _ _ compiles =>
        .of compiles.typed compiles.marks.2 fun _ => compiles.isPlain_of_default)
      (fun _ _ => .of (.ref _) rfl fun _ h => by simp [Schema.default?] at h)
      (.of (.plain (FieldType.isPlain_of_core (by simp [FieldType.core]) fun _ => rfl)) rfl
        fun _ h => by simp [Schema.default?] at h)
  exact ⟨properties, typeName, schema_eq, type_eq, built, typed⟩

section Record

variable {properties : List CompiledProperty} {typeName : Option String} {c : CompiledDefinition}
  {t : RecordType} (typed : ObjectTyped properties typeName c t)
  (names : (properties.map (·.property.name)).Nodup)

include typed

/-- A slot that must be filled is that of a property that must be present. -/
theorem ObjectTyped.exists_of_enforced {slot : Slot} (hslot : slot ∈ t.slots)
    (enforced : t.enforced.contains slot.key = true) :
    ∃ p ∈ properties, p.property.name = slot.key ∧ p.schema.isRequired = true := by
  rw [typed.built.slots_eq] at hslot
  obtain ⟨rule, hrule, rfl⟩ := List.mem_map.mp hslot
  have must : RecordType.isEnforced rule = true :=
    (typed.built.contains_enforced hrule).symm.trans enforced
  rcases mem_arrange_iff.mp hrule with ⟨hmem, _⟩ | ⟨name, _, rfl⟩
  · obtain ⟨p, hp, rfl⟩ := List.mem_map.mp hmem
    refine ⟨p, hp, (typed.typed p hp).key_eq.symm, ?_⟩
    rw [← (typed.typed p hp).required_eq]
    exact (Bool.and_eq_true_iff.mp must).1
  · simp [RecordType.isEnforced] at must

include names

/-- Of the checked entries of an object the attributes of a record can be made, if something can be
made of each value that a property has put there. -/
theorem ObjectTyped.exists_attributes {bundles : String → Except Fault Bundle}
    {follow : Reference → Value → Path → Check Unit Value} {es : Entries Value} {path : Path}
    {parts : List (Option (String × Value))}
    (hparts : List.Forall₂ (fun e q => Schema.part follow es path e.1 e.2 = .ok q)
      (fieldsOf properties) parts)
    (values : ∀ p ∈ properties, ∀ e,
      Schema.part follow es path p.property.name p.schema = .ok (some e) →
        ∃ v, e.2.hydrated bundles p.property.type = .ok v) :
    ∃ made, t.attributesOf (RecordType.given bundles c.type
      (parts.filterMap id ++ Schema.undeclared (fieldsOf properties) es)) = .ok made := by
  simp only [RecordType.attributesOf_given_eq_ok_iff]
  refine List.exists_forall₂ fun slot hslot => ?_
  by_cases declared : slot.key ∈ properties.map (·.property.name)
  · obtain ⟨p, hp, hname⟩ := List.mem_map.mp declared
    obtain ⟨q, hq, hfound⟩ :=
      Schema.find?_checked hparts (keys_fieldsOf properties ▸ names) (List.mem_map_of_mem hp)
    rw [← hname, property?_of_mem typed.type_eq names hp, hfound, Option.map_some]
    cases q with
    | some e =>
      obtain ⟨v, hv⟩ := values p hp e hq
      exact ⟨_, v, .made hv, rfl⟩
    | none =>
      refine ⟨_, slot.default, .default (Bool.eq_false_iff.mpr fun enforced => ?_), rfl⟩
      obtain ⟨p', hp', hname', required⟩ := typed.exists_of_enforced hslot enforced
      obtain rfl := List.inj_on_of_nodup_map names hp' hp (hname'.trans hname.symm)
      simp [(Schema.part_eq_none_iff.mp hq).2.2] at required
  · have undeclared : slot.key ∉ Entries.keys (fieldsOf properties) :=
      keys_fieldsOf properties ▸ declared
    rw [property?_of_notMem typed.type_eq declared,
      Schema.find?_checked_of_notMem hparts undeclared, Option.map_none]
    cases es.find? slot.key with
    | some x => exact ⟨_, x, .kept x, rfl⟩
    | none =>
      refine ⟨_, slot.default, .default (Bool.eq_false_iff.mpr fun enforced => ?_), rfl⟩
      obtain ⟨p, hp, hname, _⟩ := typed.exists_of_enforced hslot enforced
      exact declared (List.mem_map.mpr ⟨p, hp, hname⟩)

end Record

end Definition

end Lexicon
