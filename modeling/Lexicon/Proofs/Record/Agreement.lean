import Lexicon.Proofs.Compile.ClassNames
import Lexicon.Proofs.Record.Shape

/-!
# Schema, type and record type agree

Three things are compiled from the properties of an object: the schema that checks its values, the
type that describes them, and the record type with its slots. Main statement: for every object that
a compiled document holds, these three list the same keys in the same order and carry the same
marks; the type of a record has the last slot, in records and objects that the document defines, and
the attributes of the slots are different from each other and hide nothing.
-/

namespace Lexicon

/-- The fields of a schema, the properties of a type and the slots of a record type say the same of
the same keys. `typed` tells whether records hold their type. -/
structure Agree (fields : List (String × Schema)) (properties : List Property) (t : RecordType)
    (typed : Bool) : Prop where
  marks : List.Forall₂ (fun f p => f.1 = p.name ∧ f.2.isRequired = p.required) fields properties
  slots : t.slots.map (·.key) = (properties.map (·.name)).filter (· ≠ Naming.typeKey) ++
    if typed then [Naming.typeKey] else []
  named : ∀ slot ∈ t.slots, slot.attr = Naming.attributeName slot.key
  distinct : (t.slots.map (·.attr)).Nodup
  unreserved : ∀ slot ∈ t.slots, slot.attr ∉ RecordType.reservedAttributes
  enforced : t.enforced =
    ((properties.filter (·.required)).map (·.name)).filter (· ≠ Naming.typeKey)
  omitted : t.omitted = ((properties.filter fun p => !p.required && !p.type.isNullable).map
    (·.name)).filter (· ≠ Naming.typeKey)

namespace RecordType

variable {rules : List SlotRule} {typeName : Option String}

theorem unreserved_of_build {name nsid key : String} {t : RecordType}
    (h : build name nsid key rules typeName = .ok t) :
    ∀ slot ∈ t.slots, slot.attr ∉ reservedAttributes := by
  have of_check {seen : Entries String} {slots : List Slot}
      (h : checkAttributes nsid key seen slots = .ok ()) :
      ∀ slot ∈ slots, slot.attr ∉ reservedAttributes := by
    induction slots generalizing seen with
    | nil => exact nofun
    | cons slot rest ih =>
      rw [checkAttributes] at h
      split_ifs at h with reserved
      split at h
      · cases h
      · rw [List.forall_mem_cons]
        exact ⟨fun hmem => reserved (List.contains_iff_mem.mpr hmem), ih h⟩
  have slots := (builtFrom_of_build h).slots_eq
  obtain ⟨_, checked, -⟩ := Except.bind_eq_ok_iff.mp h
  rw [slots]
  exact of_check checked

/-- The slots stand in the order of the rules, with that of the type at the end. -/
theorem map_key_arrange : (arrange rules typeName).map (·.key) =
    (rules.map (·.key)).filter (· ≠ Naming.typeKey) ++
      if typeName.isSome then [Naming.typeKey] else [] := by
  unfold arrange
  rw [List.map_append, List.filter_map]
  cases typeName <;> rfl

/-- A mark that no rule of the type has is not changed by the arrangement. -/
theorem filter_arrange {marked : SlotRule → Bool}
    (other : ∀ rule : SlotRule, rule.key = Naming.typeKey → marked rule = false) :
    (arrange rules typeName).filter marked = rules.filter marked := by
  have declared : (rules.filter (·.key ≠ Naming.typeKey)).filter marked = rules.filter marked := by
    rw [List.filter_filter]
    refine List.filter_congr fun rule _ => ?_
    by_cases isType : rule.key = Naming.typeKey
    · simp [other rule isType]
    · simp [isType]
  unfold arrange
  rw [List.filter_append, declared]
  cases typeName with
  | none => exact List.append_nil _
  | some name => simp [other]

end RecordType

namespace Field

theorem Compiles.isNullable_eq {nsid : String} {strict : Bool} {f : Field} {c : CompiledField}
    (h : Compiles nsid strict f c) : c.type.isNullable = false := by
  cases h <;> rfl

end Field

namespace Definition

/-! ### One property -/

/-- The schema, the type and the slot of a property have the same name and the same marks. -/
structure CompiledProperty.Consistent (p : CompiledProperty) : Prop where
  key_eq : p.rule.key = p.property.name
  isRequired_eq : p.schema.isRequired = p.property.required
  required_eq : p.rule.required = p.property.required
  nullable_eq : p.rule.nullable = p.property.type.isNullable

theorem CompiledProperty.Consistent.of {name : String} {field : Field} {compiled : CompiledField}
    {required nullable : Bool} (optional : compiled.schema.isRequired = false)
    (proper : compiled.type.isNullable = false) :
    (CompiledProperty.of name field compiled required nullable).Consistent := by
  refine ⟨rfl, isRequired_of optional, rfl, ?_⟩
  cases nullable with
  | true => rfl
  | false => exact proper.symm

section Object

variable {properties : List CompiledProperty} (consistent : ∀ p ∈ properties, p.Consistent)

include consistent

theorem map_key_rules :
    (properties.map (·.rule)).map (·.key) = (properties.map (·.property)).map (·.name) := by
  rw [List.map_map, List.map_map]
  exact List.map_congr_left fun p hp => (consistent p hp).key_eq

/-- Where rules and properties are marked alike, they are marked under the same keys. -/
theorem map_key_filter_rules {marked : SlotRule → Bool} {marked' : Property → Bool}
    (same : ∀ p ∈ properties,
      marked p.rule = (p.property.name != Naming.typeKey && marked' p.property)) :
    ((properties.map (·.rule)).filter marked).map (·.key) =
      (((properties.map (·.property)).filter marked').map (·.name)).filter
        (· ≠ Naming.typeKey) := by
  have chosen : properties.filter (marked ∘ (·.rule)) = properties.filter fun p =>
      decide (p.property.name ≠ Naming.typeKey) && marked' p.property := by
    refine List.filter_congr fun p hp => (same p hp).trans ?_
    rw [Bool.eq_iff_iff]
    simp
  simp only [List.filter_map, List.map_map, List.filter_filter, chosen]
  exact List.map_congr_left fun p hp => (consistent p (List.mem_filter.mp hp).1).key_eq

/-- The properties of an object that compiles agree with the record type that is built of them. -/
theorem agree_of_build {className nsid key : String} {typeName : Option String} {t : RecordType}
    (build : RecordType.build className nsid key (properties.map (·.rule)) typeName = .ok t) :
    Agree (fieldsOf properties) (properties.map (·.property)) t typeName.isSome := by
  have built := RecordType.builtFrom_of_build build
  refine ⟨?_, ?_, ?_, built.attributes, RecordType.unreserved_of_build build, ?_, ?_⟩
  · rw [fieldsOf, List.forall₂_map_left_iff, List.forall₂_map_right_iff]
    exact List.forall₂_same.mpr fun p hp => ⟨rfl, (consistent p hp).isRequired_eq⟩
  · rw [built.slots_eq, List.map_map, ← map_key_rules consistent, ← RecordType.map_key_arrange]
    rfl
  · rw [built.slots_eq, List.forall_mem_map]
    exact fun _ _ => rfl
  · rw [built.enforced_eq,
      RecordType.filter_arrange fun rule isType => by simp [RecordType.isEnforced, isType]]
    refine map_key_filter_rules consistent fun p hp => ?_
    have same := consistent p hp
    rw [RecordType.isEnforced, same.key_eq, same.required_eq, Bool.and_comm]
  · rw [built.omitted_eq,
      RecordType.filter_arrange fun rule isType => by simp [RecordType.isOmitted, isType]]
    refine map_key_filter_rules consistent fun p hp => ?_
    have same := consistent p hp
    rw [RecordType.isOmitted, same.key_eq, same.required_eq, same.nullable_eq, Bool.and_comm]

end Object

/-! ### Compiled definitions -/

theorem consistent_of_callFields {nsid : String} {d : Definition} {call : Call}
    {partKeys : List String} {p : CompiledProperty} (hp : p ∈ callFields nsid d call partKeys) :
    p.Consistent := by
  rcases mem_callFields hp with ⟨key, -, required, rfl⟩ | rfl
  · exact .of rfl rfl
  · exact .of rfl rfl

/-- Whether the records of a component hold their type. -/
def Component.isTyped : Component → Bool
  | .object _ typeName _ => typeName.isSome
  | _ => false

/-- A component that is compiled to the type of an object is compiled to a schema and a record type
that agree with it. -/
theorem Component.Compiles.agree {nsid key : String} {strict : Bool} {component : Component}
    {c : CompiledDefinition} (h : component.Compiles nsid key strict c)
    (made : component.Made nsid) {properties : List Property}
    (shaped : c.type = .object properties) :
    ∃ fields t, c.schema = .fields fields ∧ c.recordType = some t ∧
      Agree fields properties t component.isTyped := by
  cases h with
  | @object _ _ _ _ compiled recordType _ h =>
    obtain rfl := DefinitionType.object.inj (h.type_eq.symm.trans shaped)
    refine ⟨_, recordType, h.schema_eq, h.recordType_eq, agree_of_build (fun p hp => ?_) h.build⟩
    obtain ⟨e, -, field, hfield, rfl⟩ := h.properties.exists_left hp
    have compiles := Field.compiles_of_outcome hfield
    exact .of compiles.marks.2 compiles.isNullable_eq
  | @call _ _ recordType _ build =>
    obtain rfl := DefinitionType.object.inj shaped
    cases made with
    | call d call partKeys =>
      exact ⟨_, recordType, rfl, rfl,
        agree_of_build (fun p hp => consistent_of_callFields hp) build⟩
  | token | field => cases shaped

theorem Component.Compiles.exists_properties {nsid key : String} {strict : Bool}
    {component : Component} {c : CompiledDefinition} (h : component.Compiles nsid key strict c)
    {t : RecordType} (ht : c.recordType = some t) : ∃ properties, c.type = .object properties := by
  cases h with
  | object h => exact ⟨_, h.type_eq⟩
  | call => exact ⟨_, rfl⟩
  | token | field => cases ht

/-- A component whose records hold their type is that of a record or an object, under its own
name. -/
theorem eq_of_isTyped {nsid key : String} {d : Definition} {e : String × Component}
    (h : e ∈ d.components nsid key) (typed : e.2.isTyped = true) :
    e.1 = key ∧ d.body?.isSome = true := by
  have of_call {call : Call}
      (h : e ∈ (key, .call (callFields nsid d call ((d.parts call).map (·.1)))) ::
        (d.parts call).map fun p => (p.1, Component.ofPart p.2.1)) : False := by
    rcases List.mem_cons.mp h with rfl | h
    · cases typed
    · obtain ⟨part, -, rfl⟩ := List.mem_map.mp h
      cases hbody : part.2.1 <;> simp [hbody, Component.ofPart, Component.isTyped] at typed
  cases d with
  | record | object =>
    rw [List.mem_singleton.mp h]
    exact ⟨rfl, rfl⟩
  | query | procedure | subscription => exact (of_call h).elim
  | token | field =>
    rw [List.mem_singleton.mp h] at typed
    cases typed

theorem exists_isTyped (nsid key : String) {d : Definition} (h : d.body?.isSome = true) :
    ∃ component, (key, component) ∈ d.components nsid key ∧ component.isTyped = true := by
  cases d with
  | record | object => exact ⟨_, List.mem_singleton.mpr rfl, rfl⟩
  | _ => cases h

end Definition

/-- Whether the records under a key of a document hold their type: those of the records and the
objects that the document defines do, those of calls and of their parts do not. -/
def Document.keepsType (d : Document) (key : String) : Bool :=
  (d.definitions.find? key).any (·.body?.isSome)

theorem Document.keepsType_eq {d : Document} (definitions : d.definitions.keys.Nodup)
    (components : (Entries.keys d.components).Nodup) {key : String}
    {component : Definition.Component} (h : (key, component) ∈ d.components) :
    d.keepsType key = component.isTyped := by
  rw [Bool.eq_iff_iff, keepsType, Option.any_eq_true]
  constructor
  · rintro ⟨definition, found, body⟩
    obtain ⟨other, hother, typed⟩ := Definition.exists_isTyped d.id key body
    have mem : (key, other) ∈ d.components :=
      List.mem_flatMap.mpr ⟨_, Entries.mem_of_find?_eq_some found, hother⟩
    rw [← Entries.find?_eq_some_iff components] at h mem
    rwa [← Option.some.inj (mem.symm.trans h)]
  · intro typed
    obtain ⟨e, he, hmem⟩ := List.mem_flatMap.mp h
    obtain ⟨rfl, body⟩ := Definition.eq_of_isTyped hmem typed
    exact ⟨e.2, (Entries.find?_eq_some_iff definitions).mpr he, body⟩

/-- In a document that compiles the definitions and their components have different keys. -/
theorem Document.nodup_of_compile {d : Document} {id : BundleId} {registry : Nat} {strict : Bool}
    {b : Bundle} (compiled : (d.compile id registry strict).outcome = .ok b) :
    d.definitions.keys.Nodup ∧ (Entries.keys d.components).Nodup := by
  obtain ⟨⟨-, ⟨_, all⟩, -⟩, rfl, -, -⟩ := Document.of_compile compiled
  obtain ⟨names, -, -⟩ := Document.compiled_of_outcome all
  obtain ⟨made, distinct⟩ := Document.compiles_of_outcome all
  refine ⟨(nodup_classNameOf names).of_map, ?_⟩
  rwa [← Entries.keys_eq_of_forall₂ (made.imp fun _ _ h => h.1)]

theorem Bundle.exists_agree {d : Document} {id : BundleId} {registry : Nat} {strict : Bool}
    {b : Bundle} (compiled : (d.compile id registry strict).outcome = .ok b) {key : String}
    {c : CompiledDefinition} (found : b.definitions.find? key = some c)
    {properties : List Property} (shaped : c.type = .object properties) :
    ∃ fields t, c.schema = .fields fields ∧ c.recordType = some t ∧
      Agree fields properties t (d.keepsType key) := by
  obtain ⟨definitions, components⟩ := Document.nodup_of_compile compiled
  obtain ⟨faithful, rfl, -, -⟩ := Document.of_compile compiled
  obtain ⟨_, component, hmem, compiles⟩ := faithful.component found
  obtain ⟨e, -, hcomponent⟩ := List.mem_flatMap.mp hmem
  rw [Document.keepsType_eq definitions components hmem]
  exact compiles.agree (Definition.made_of_mem_components hcomponent) shaped

namespace Bundle

/-- A document with a call that takes an object, and an object with properties of all kinds. -/
def sendAndNote : Value :=
  .object [("lexicon", .int 1), ("id", .str "com.example.send"), ("defs", .object [
    ("main", .object [("type", .str "procedure"), ("input", .object [
      ("encoding", .str "application/json"), ("schema", .object [("type", .str "object"),
        ("required", .list [.str "text"]), ("properties", .object [
          ("text", .object [("type", .str "string")]),
          ("$type", .object [("type", .str "string")])])])])]),
    ("note", .object [("type", .str "object"), ("required", .list [.str "createdAt"]),
      ("nullable", .list [.str "replyTo"]), ("properties", .object [
        ("createdAt", .object [("type", .str "string")]),
        ("replyTo", .object [("type", .str "string")]),
        ("pinned", .object [("type", .str "boolean")])])])])]

end Bundle

end Lexicon
