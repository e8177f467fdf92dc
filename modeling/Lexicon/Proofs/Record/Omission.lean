import Lexicon.Proofs.Compile.Faults
import Lexicon.Proofs.Record.Agreement

/-!
# What is left out of written records

The written form of a record by what the document says of the properties of its type. A declared key
is written unless its value is null and it is neither required nor nullable, in order of
declaration, and the type of the record comes last. Main statement: this holds of the records of
every class that a compiled document has and, at any depth, of the records that they hold.
-/

namespace Lexicon

namespace Definition.Component

/-- What a document says of the properties of a component, in order of declaration. -/
def rules : Component → List SlotRule
  | .object body _ brand => (body.properties.merge brand).map (propertyRule body)
  | .call fields => fields.map (·.rule)
  | .token | .field _ => []

end Definition.Component

namespace Value

/-- What the attribute of a key holds. -/
def slotValue (attributes : Entries Value) (key : String) : Value :=
  ofOption (attributes.find? (Naming.attributeName key))

/-- The keys that a record with the given attributes is written under: in order of declaration
those that are required or nullable or hold something, and then that of the type. -/
def writtenKeys (component : Definition.Component) (attributes : Entries Value) : List String :=
  ((component.rules.filter fun rule => rule.key != Naming.typeKey &&
      (rule.required || rule.nullable || !(slotValue attributes rule.key).isNull)).map (·.key)) ++
    if component.isTyped then [Naming.typeKey] else []

end Value

/-- The classes of the records of compiled documents, each with what it is made from. -/
inductive RecordClass.Compiled : RecordClass → Definition.Component → Prop
  | of {d : Document} {id : BundleId} {registry : Nat} {strict : Bool} {b : Bundle}
      (compiled : (d.compile id registry strict).outcome = .ok b) {key : String}
      {component : Definition.Component} (declared : (key, component) ∈ d.components)
      {binding : Binding} (bound : b.binding? key = some binding) :
      Compiled (b.recordClass key binding) component

namespace Value

/-- Values whose records, at any depth, are of a compiled class and hold a value in each slot. -/
inductive Assigned : Value → Prop
  | null : Assigned .null
  | bool (b : Bool) : Assigned (.bool b)
  | int (n : Int) : Assigned (.int n)
  | float (x : Binary64) : Assigned (.float x)
  | str (s : String) : Assigned (.str s)
  | bytes (b : List UInt8) : Assigned (.bytes b)
  | list {items : List Value} (items_assigned : ∀ x ∈ items, Assigned x) : Assigned (.list items)
  | tuple {items : List Value} (items_assigned : ∀ x ∈ items, Assigned x) :
      Assigned (.tuple items)
  | object {es : Entries Value} (entries : ∀ e ∈ es, Assigned e.2) : Assigned (.object es)
  | record {cls : RecordClass} {component : Definition.Component} {attributes : Entries Value}
      (compiled : cls.Compiled component)
      (filled : ∀ slot ∈ cls.slots, (attributes.find? slot.2).isSome)
      (values : ∀ slot ∈ cls.slots, ∀ v, attributes.find? slot.2 = some v → Assigned v) :
      Assigned (.record cls attributes)

/-- The written form of values: the keys of each record are those that are not left out. -/
inductive Written : Value → Value → Prop
  | null : Written .null .null
  | bool (b : Bool) : Written (.bool b) (.bool b)
  | int (n : Int) : Written (.int n) (.int n)
  | float (x : Binary64) : Written (.float x) (.float x)
  | str (s : String) : Written (.str s) (.str s)
  | bytes (b : List UInt8) :
      Written (.bytes b) (.object [("$bytes", .str (String.ofList (Text.Base64.encode b)))])
  | list {items : List Value} {write : Value → Value} (h : ∀ x ∈ items, Written x (write x)) :
      Written (.list items) (.list (items.map write))
  | tuple {items : List Value} {write : Value → Value} (h : ∀ x ∈ items, Written x (write x)) :
      Written (.tuple items) (.list (items.map write))
  | object {es : Entries Value} {write : Value → Value} (h : ∀ e ∈ es, Written e.2 (write e.2)) :
      Written (.object es) (.object (es.mapValues write))
  | record {cls : RecordClass} {component : Definition.Component} {attributes : Entries Value}
      {write : String → Value} (compiled : cls.Compiled component)
      (h : ∀ key ∈ writtenKeys component attributes,
        Written (slotValue attributes key) (write key)) :
      Written (.record cls attributes)
        (.object ((writtenKeys component attributes).map fun key => (key, write key)))

end Value

namespace Definition

theorem rule_of_propertyCompiles {nsid : String} {strict : Bool} {body : ObjectBody}
    {e : String × Field} {p : CompiledProperty} (h : PropertyCompiles nsid strict body e p) :
    p.rule = propertyRule body e := by
  obtain ⟨_, -, rfl⟩ := h
  rfl

/-- The record type of a component is built of what the document says of its properties. -/
theorem Component.Compiles.exists_build {nsid key : String} {strict : Bool} {component : Component}
    {c : CompiledDefinition} (h : component.Compiles nsid key strict c) {t : RecordType}
    (ht : c.recordType = some t) : ∃ className typeName,
      RecordType.build className nsid key component.rules typeName = .ok t ∧
        component.isTyped = typeName.isSome := by
  cases h with
  | @object body typeName brand className compiled _ _ h =>
    obtain rfl := Option.some.inj (h.recordType_eq.symm.trans ht)
    have rules : compiled.map (·.rule) = (Component.object body typeName brand).rules := by
      refine List.forall₂_eq_eq_eq ▸ ?_
      rw [Component.rules, List.forall₂_map_left_iff, List.forall₂_map_right_iff]
      exact h.properties.flip.imp fun _ _ h => rule_of_propertyCompiles h
    exact ⟨className, typeName, rules ▸ h.build, rfl⟩
  | @call _ className _ _ build =>
    obtain rfl := Option.some.inj ht
    exact ⟨className, none, build, rfl⟩
  | token | field => cases ht

end Definition

namespace Value

/-! ### Keys of one record -/

section Record

variable {nsid key : String} {component : Definition.Component} {typeName : Option String}
  {t : RecordType} {attributes : Entries Value}

/-- The keys that are written are those of the slots, without those that are left out. -/
theorem writtenKeys_eq (typed : component.isTyped = typeName.isSome) :
    writtenKeys component attributes = ((RecordType.arrange component.rules typeName).filter
      fun rule => !((slotValue attributes rule.key).isNull && RecordType.isOmitted rule)).map
        (·.key) := by
  unfold writtenKeys RecordType.arrange
  rw [List.filter_append, List.map_append, List.filter_filter, typed]
  congr 1
  · refine congrArg (List.map _) (List.filter_congr fun rule _ => ?_)
    by_cases isType : rule.key = Naming.typeKey
    · simp [isType]
    · have declared : (rule.key != Naming.typeKey) = true := bne_iff_ne.mpr isType
      rw [RecordType.isOmitted, declared]
      cases rule.required <;> cases rule.nullable <;> simp [isType]
  · cases typeName with
    | none => rfl
    | some name => simp [RecordType.isOmitted]

/-- Where every slot holds a value, those are written that are not left out. -/
theorem writtenEntries_eq_filterMap {rules : List SlotRule}
    (slots : t.slots = rules.map RecordType.slotOf)
    (omitted : ∀ rule ∈ rules, t.omitted.contains rule.key = RecordType.isOmitted rule)
    {cls : ClassId}
    (filled : ∀ slot ∈ (t.classOf cls).slots, (Entries.find? attributes slot.2).isSome) :
    t.written cls attributes = rules.filterMap fun rule =>
      if !((slotValue attributes rule.key).isNull && RecordType.isOmitted rule) then
        some (rule.key, (slotValue attributes rule.key).encode)
      else none := by
  have slots : (t.classOf cls).slots =
      rules.map fun rule => (rule.key, Naming.attributeName rule.key) := by
    rw [RecordType.classOf, slots, List.map_map]
    rfl
  rw [slots, List.forall_mem_map] at filled
  rw [RecordType.written, writtenEntries, slots, List.filterMap_map]
  refine List.filterMap_congr fun rule hrule => ?_
  obtain ⟨v, hv⟩ := Option.isSome_iff_exists.mp (filled rule hrule)
  have value : slotValue attributes rule.key = v := by
    rw [slotValue, hv]
    rfl
  have kept : (t.classOf cls).omitted.contains rule.key = RecordType.isOmitted rule :=
    omitted rule hrule
  simp only [Function.comp_apply, find?_encodeEntries, hv, Option.map_some, kept, value]
  cases v with
  | null => cases RecordType.isOmitted rule <;> simp [encode, isNull]
  | _ => simp [encode, encodedBytes, isNull]

theorem encode_of_builtFrom (built : t.BuiltFrom nsid key component.rules typeName)
    (typed : component.isTyped = typeName.isSome) {cls : ClassId}
    (filled : ∀ slot ∈ (t.classOf cls).slots, (Entries.find? attributes slot.2).isSome) :
    (Value.record (t.classOf cls) attributes).encode =
      .object ((writtenKeys component attributes).map fun k =>
        (k, (slotValue attributes k).encode)) := by
  rw [RecordType.encode_record, writtenEntries_eq_filterMap built.slots_eq
    (fun _ => built.contains_omitted) filled, writtenKeys_eq typed, List.map_map,
    ← List.filterMap_eq_map, List.filterMap_filter]
  rfl

end Record

end Value

/-- The class of a compiled document is that of a record type, which is built of what the document
says of the properties. -/
theorem RecordClass.Compiled.exists_builtFrom {cls : RecordClass}
    {component : Definition.Component} (h : cls.Compiled component) :
    ∃ nsid key typeName t id, cls = RecordType.classOf t id ∧
      t.BuiltFrom nsid key component.rules typeName ∧ component.isTyped = typeName.isSome := by
  obtain @⟨d, _, _, _, b, compiled, key, _, declared, binding, bound⟩ := h
  obtain ⟨-, components⟩ := Document.nodup_of_compile compiled
  obtain ⟨c, _, other, -, recordType, hother, compiles⟩ := Bundle.origin_of_binding? compiled bound
  rw [← Entries.find?_eq_some_iff components] at declared hother
  obtain rfl := Option.some.inj (declared.symm.trans hother)
  obtain ⟨_, typeName, build, typed⟩ := compiles.exists_build recordType
  exact ⟨_, key, typeName, _, _, rfl, RecordType.builtFrom_of_build build, typed⟩

namespace Value

/-! ### Records at any depth -/

section Compiled

variable {cls : RecordClass} {component : Definition.Component} {attributes : Entries Value}

theorem encode_of_compiled (compiled : cls.Compiled component)
    (filled : ∀ slot ∈ cls.slots, (Entries.find? attributes slot.2).isSome) :
    (Value.record cls attributes).encode = .object ((writtenKeys component attributes).map fun k =>
      (k, (slotValue attributes k).encode)) := by
  obtain ⟨_, _, _, t, id, rfl, built, typed⟩ := compiled.exists_builtFrom
  exact encode_of_builtFrom built typed filled

theorem mem_slots_of_mem_writtenKeys (compiled : cls.Compiled component) {key : String}
    (h : key ∈ writtenKeys component attributes) :
    (key, Naming.attributeName key) ∈ cls.slots := by
  obtain ⟨_, _, _, t, id, rfl, built, typed⟩ := compiled.exists_builtFrom
  rw [writtenKeys_eq typed] at h
  obtain ⟨rule, hrule, rfl⟩ := List.mem_map.mp h
  rw [RecordType.classOf, built.slots_eq, List.map_map]
  exact List.mem_map.mpr ⟨rule, (List.mem_filter.mp hrule).1, rfl⟩

/-- What is written under a key is what its attribute holds. -/
theorem find?_of_mem_writtenKeys (compiled : cls.Compiled component)
    (filled : ∀ slot ∈ cls.slots, (Entries.find? attributes slot.2).isSome) {key : String}
    (h : key ∈ writtenKeys component attributes) :
    attributes.find? (Naming.attributeName key) = some (slotValue attributes key) := by
  have hslot := mem_slots_of_mem_writtenKeys compiled h
  obtain ⟨v, hv⟩ := Option.isSome_iff_exists.mp (filled _ hslot)
  rw [slotValue, hv]
  rfl

end Compiled

theorem Assigned.written {v : Value} (assigned : v.Assigned) : v.Written v.encode := by
  induction assigned with
  | null => exact .null
  | bool b => exact .bool b
  | int n => exact .int n
  | float x => exact .float x
  | str s => exact .str s
  | bytes b => exact .bytes b
  | list _ ih =>
    rw [encode, encodeItems_eq_map]
    exact .list ih
  | tuple _ ih =>
    rw [encode, encodeItems_eq_map]
    exact .tuple ih
  | object _ ih =>
    rw [encode, encodeEntries_eq_map]
    exact .object ih
  | @record cls component attributes compiled filled _ ih =>
    have held : ∀ key ∈ writtenKeys component attributes,
        (slotValue attributes key).Written (slotValue attributes key).encode := fun key hkey =>
      ih _ (mem_slots_of_mem_writtenKeys compiled hkey) _
        (find?_of_mem_writtenKeys compiled filled hkey)
    rw [encode_of_compiled compiled filled]
    exact .record compiled held

/-- A value has no other written form than the one that it is encoded to. -/
theorem Written.eq_encode {v w : Value} (h : v.Written w) (assigned : v.Assigned) :
    w = v.encode := by
  induction h with
  | null | bool | int | float | str | bytes => rfl
  | list _ ih =>
    cases assigned with
    | list items =>
      rw [encode, encodeItems_eq_map, List.map_congr_left fun x hx => ih x hx (items x hx)]
  | tuple _ ih =>
    cases assigned with
    | tuple items =>
      rw [encode, encodeItems_eq_map, List.map_congr_left fun x hx => ih x hx (items x hx)]
  | object _ ih =>
    cases assigned with
    | object entries =>
      rw [encode, encodeEntries_eq_map, Entries.mapValues]
      exact congrArg _ (List.map_congr_left fun e he => congrArg _ (ih e he (entries e he)))
  | record compiled _ ih =>
    cases assigned with
    | record _ filled values =>
      rw [encode_of_compiled compiled filled]
      refine congrArg _ (List.map_congr_left fun key hkey => congrArg _ (ih key hkey ?_))
      exact values _ (mem_slots_of_mem_writtenKeys compiled hkey) _
        (find?_of_mem_writtenKeys compiled filled hkey)

end Value

namespace Bundle

/-- The class of the notes of `sendAndNote`. -/
def noteClass : RecordClass where
  id := ⟨.loose 0, "note", 0⟩
  name := "Note"
  slots := [("createdAt", "created_at"), ("replyTo", "reply_to"), ("pinned", "pinned"),
    ("$type", "type_")]
  omitted := ["pinned"]

/-- A note in which nothing is pinned. -/
def innerNote : Entries Value :=
  [("created_at", .str ""), ("reply_to", .null), ("pinned", .null), ("type_", .null)]

/-- A note that holds bytes and another note. -/
def outerNote : Entries Value :=
  [("created_at", .bytes [1, 2]), ("reply_to", .null),
    ("pinned", .tuple [.record noteClass innerNote]), ("type_", .str "com.example.send#note")]

end Bundle

end Lexicon
