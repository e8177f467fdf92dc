import Lexicon.Proofs.Compile.Object
import Lexicon.Proofs.Record.Regular

/-!
# Shapes of values

The schema of a regular field says what is accepted, and its type says what is made of it. Both are
followed together here: down to the items of arrays and up to the references, with values between
that are taken as they are. Main statement: every regular field has a shape, and its default fits
it.
-/

namespace Lexicon

/-- A type by which no part of a value becomes a record. -/
def FieldType.IsPlain (t : FieldType) : Prop :=
  ∀ bundles (m : Value), m.hydrated bundles t = .ok m

theorem FieldType.isPlain_of_core {t : FieldType} (array : ∀ items, t.core ≠ .array items)
    (target : ∀ es, t.core.target? es = none) : t.IsPlain := by
  intro bundles m
  cases m with
  | list items =>
    rw [Value.hydrated_list]
    split
    · next itemType hcore => exact absurd hcore (array itemType)
    · rfl
  | object es => rw [Value.hydrated_object, target es]
  | _ => exact Value.hydrated_of_plain bundles (by simp) (by simp) t

/-- A schema and a type without unions, whose references all lead to what is `known`. -/
inductive ValueShape (known : Reference → Prop) : Schema → FieldType → Prop
  | plain {s : Schema} {t : FieldType} (rereads : ∀ follow, s.Rereads follow) (plain : t.IsPlain) :
      ValueShape known s t
  | array {s : Schema} {t : FieldType} (items : ValueShape known s t) (bounds : Bounds) :
      ValueShape known (.array s bounds) (.array t)
  | ref {target : Reference} (h : known target) : ValueShape known (.ref target) (.ref target)

/-- A value can stand in for an absent one: it is accepted as it is, and no value becomes null. -/
structure StandsIn (d : Value) (s : Schema) : Prop where
  json : d.IsJson
  accepted : ∀ follow path, (s.checkWith follow d path).outcome = .ok d
  proper : ∀ follow v path, (s.checkWith follow v path).outcome ≠ .ok .null

/-- What is given as the default of a field fits its schema. -/
structure DefaultFits (given : Option Value) (s : Schema) : Prop where
  unstated : s.default? = none → given.getD .null = .null
  stated : ∀ d, s.default? = some d → StandsIn d s

namespace Field

/-- The schema of a single value that is never null. -/
structure SingleSchema (s : Schema) : Prop where
  scalar : s.Scalar
  proper : ∀ follow path, (s.checkWith follow .null path).outcome ≠ .ok .null

private theorem single_boolean : SingleSchema .boolean :=
  ⟨.boolean, fun _ _ => by simp [Schema.checkWith, Check.fail]⟩

private theorem single_integer (bounds : Bounds) : SingleSchema (.integer bounds) :=
  ⟨.integer bounds, fun _ _ => by simp [Schema.checkWith, Check.fail]⟩

private theorem single_string (rules : TextRules) : SingleSchema (.string rules) :=
  ⟨.string rules, fun _ _ => by simp [Schema.checkWith, Check.fail]⟩

theorem eq_null_of_identical {v : Value} (h : Value.identical .null v = true) : v = .null := by
  cases v <;> simp [Value.identical] at h ⊢

variable {f : Field}

private theorem single_of_constSchema? (declared : f.UsesDeclared) {s : Schema}
    (h : f.constSchema? = .ok (some s)) : SingleSchema s := by
  unfold constSchema? at h
  split at h
  · next value hvalue =>
    obtain rfl := Option.some.inj (Except.ok.inj h)
    refine ⟨.literal value, fun follow path => ?_⟩
    have proper := (declared.isSingle (.inr rfl) hvalue).2.ne_null
    have differs : ¬ Value.identical .null value = true := fun h => proper (eq_null_of_identical h)
    simp [Schema.checkWith, differs, Check.fail]
  · next v _ hv =>
    obtain ⟨values, hvalues, h⟩ := Except.bind_eq_ok_iff.mp h
    obtain rfl := Option.some.inj (Except.ok.inj h)
    refine ⟨.enum values, fun follow path => ?_⟩
    have single := declared.isSingle_of_enum hv hvalues
    have differs : ¬ values.any (Value.identical .null) = true := by
      rw [List.any_eq_true]
      rintro ⟨x, hx, same⟩
      exact (single x hx).ne_null (eq_null_of_identical same)
    simp [Schema.checkWith, differs, Check.fail]
  · simp at h

private theorem single_getD (declared : f.UsesDeclared) {fixed : Option Schema}
    (h : f.constSchema? = .ok fixed) {s : Schema} (hs : SingleSchema s) :
    SingleSchema (fixed.getD s) := by
  cases fixed with
  | none => exact hs
  | some fixed => exact single_of_constSchema? declared h

private theorem single_of_stringSchema (declared : f.UsesDeclared) {s : Schema}
    (h : f.stringSchema = .ok s) : SingleSchema s := by
  obtain ⟨fixed, rules, hfixed, rfl⟩ := exists_rules_of_stringSchema h
  exact single_getD declared hfixed (single_string rules)

private theorem rereads_addDefault {s : Schema} (h : SingleSchema s)
    (follow : Reference → Value → Path → Check Unit Value) : (f.addDefault s).Rereads follow := by
  unfold addDefault
  split
  · exact h.scalar.rereads.withDefault _
  · exact h.scalar.rereads

theorem isPlain_string (format : Value) (known : List Value) :
    FieldType.IsPlain (.string format known) :=
  FieldType.isPlain_of_core (by simp [FieldType.core]) fun _ => rfl

theorem isPlain_boolean : FieldType.IsPlain .boolean :=
  FieldType.isPlain_of_core (by simp [FieldType.core]) fun _ => rfl

theorem isPlain_integer : FieldType.IsPlain .integer :=
  FieldType.isPlain_of_core (by simp [FieldType.core]) fun _ => rfl

/-- The schema and the type of a regular field follow one another down to what is known. -/
theorem Compiles.shape {nsid : String} {strict : Bool} {c : CompiledField}
    (h : Compiles nsid strict f c) (regular : f.Regular nsid) {known : Reference → Prop}
    (hknown : ∀ target, f.Refers nsid target → known target) :
    ValueShape known c.schema c.type := by
  induction h with
  | array _ ih =>
    cases regular with
    | intro _ _ _ items =>
      refine .array (ih (items rfl _ rfl) fun target refers => ?_) _
      exact hknown target (.items rfl rfl refers)
  | string _ hschema =>
    cases regular with
    | intro _ declared =>
      exact .plain (rereads_addDefault (single_of_stringSchema declared hschema))
        (isPlain_string _ _)
  | boolean _ hfixed =>
    cases regular with
    | intro _ declared =>
      exact .plain (rereads_addDefault (single_getD declared hfixed single_boolean)) isPlain_boolean
  | integer _ hfixed =>
    cases regular with
    | intro _ declared =>
      exact .plain (rereads_addDefault (single_getD declared hfixed (single_integer _)))
        isPlain_integer
  | blob =>
    exact .plain (fun _ => Schema.rereads_blobSchema _ _)
      (FieldType.isPlain_of_core (by simp [FieldType.core]) fun _ => rfl)
  | bytes =>
    exact .plain (fun _ => Schema.rereads_bytes _)
      (FieldType.isPlain_of_core (by simp [FieldType.core]) fun _ => rfl)
  | cidLink =>
    exact .plain (fun _ => Schema.rereads_linkSchema)
      (FieldType.isPlain_of_core (by simp [FieldType.core]) fun _ => rfl)
  | ref type htarget => exact .ref (hknown _ (.ref type htarget))
  | union type =>
    cases regular with
    | intro union => exact absurd type union
  | unknown =>
    exact .plain (fun _ => Schema.rereads_any)
      (FieldType.isPlain_of_core (by simp [FieldType.core]) fun _ => rfl)
  | unrecognized =>
    exact .plain (fun _ => Schema.rereads_noop)
      (FieldType.isPlain_of_core (by simp [FieldType.core]) fun _ => rfl)

/-! ### Defaults of regular fields -/

private theorem SingleSchema.isPlain {s : Schema} (h : SingleSchema s) : IsPlain s := by
  cases h.scalar <;> exact ⟨rfl, rfl⟩

private theorem standsIn_of_addDefault {s : Schema} (single : SingleSchema s)
    (declared : f.UsesDeclared)
    (accepts : ∀ v, f.option? "default" = some v → (f.addDefault s).Accepts v) {d : Value}
    (hd : (f.addDefault s).default? = some d) : StandsIn d (f.addDefault s) := by
  have stated : f.option? "default" = some d := (addDefault_marks single.isPlain).1.symm.trans hd
  have within : f.addDefault s = .withDefault s d := by
    unfold addDefault
    rw [stated]
  obtain ⟨n, accepted⟩ := Schema.accepts_iff.mp (accepts d stated)
  rw [within] at accepted ⊢
  simp only [Schema.checkWith] at accepted
  obtain ⟨-, anywhere⟩ := single.scalar.accepted accepted
  refine ⟨(declared.isSingle (.inl rfl) (find?_of_option? stated)).2.isJson, fun follow path => ?_,
    fun follow v path hnull => ?_⟩
  · simp only [Schema.checkWith]
    exact anywhere follow path
  · simp only [Schema.checkWith] at hnull
    obtain ⟨rfl, -⟩ := single.scalar.accepted hnull
    exact single.proper follow path hnull

/-- The default of a regular field fits it. -/
theorem Compiles.defaultFits {nsid : String} {strict : Bool} {c : CompiledField}
    (h : Compiles nsid strict f c) (regular : f.Regular nsid)
    (compiled : (f.compile nsid strict).outcome = .ok c) :
    DefaultFits (f.options.find? "default") c.schema := by
  obtain ⟨_, declared, default, _⟩ := regular
  have accepts := fun v => default strict c v compiled
  refine ⟨fun hnone => ?_, fun d hd => ?_⟩
  · rw [h.marks.1] at hnone
    cases hv : f.options.find? "default" with
    | none => rfl
    | some v =>
      obtain ⟨⟨name, hname, type⟩, single⟩ := declared.isSingle (.inl rfl) hv
      have stated : f.option? "default" = some v := by
        simp only [option?, Field.option, Entries.getValue, hv, Value.ofOption]
        cases v <;> first | rfl | exact absurd single id
      simp only [default?, type, if_pos hname, stated] at hnone
      simp at hnone
  · cases h with
    | string _ hschema =>
      exact standsIn_of_addDefault (single_of_stringSchema declared hschema) declared accepts hd
    | boolean _ hfixed =>
      exact standsIn_of_addDefault (single_getD declared hfixed single_boolean) declared
        accepts hd
    | integer _ hfixed =>
      exact standsIn_of_addDefault (single_getD declared hfixed (single_integer _)) declared
        accepts hd
    | _ => simp [Schema.default?, compileArray, blobSchema, linkSchema, Schema.fields] at hd

end Field

/-! ### Objects -/

namespace Definition

/-- A property whose schema and type have a shape that its default fits. -/
inductive PropertyShape (known : Reference → Prop) : CompiledProperty → Prop
  | of {name : String} {field : Field} {compiled : CompiledField} {required nullable : Bool}
      (shape : ValueShape known compiled.schema compiled.type)
      (optional : compiled.schema.isRequired = false)
      (fits : DefaultFits (field.options.find? "default") compiled.schema) :
      PropertyShape known (.of name field compiled required nullable)

/-- The fields of the schema of an object with given properties. -/
def fieldsOf (properties : List CompiledProperty) : List (String × Schema) :=
  properties.map fun p => (p.property.name, p.schema)

theorem keys_fieldsOf (properties : List CompiledProperty) :
    Entries.keys (fieldsOf properties) = properties.map (·.property.name) := by
  rw [Entries.keys, fieldsOf, List.map_map]
  rfl

section Properties

variable {properties : List CompiledProperty} {type : DefinitionType}
  (type_eq : type = .object (properties.map (·.property)))

include type_eq

/-- The type of an object tells the type of each property. -/
theorem property?_of_mem (names : (properties.map (·.property.name)).Nodup)
    {p : CompiledProperty} (hp : p ∈ properties) :
    type.property? p.property.name = some p.property := by
  rw [type_eq, DefinitionType.property?, DefinitionType.properties]
  cases hfound : (properties.map (·.property)).find? (·.name == p.property.name) with
  | none => simpa using List.find?_eq_none.mp hfound _ (List.mem_map_of_mem hp)
  | some found =>
    obtain ⟨q, hq, rfl⟩ := List.mem_map.mp (List.mem_of_find?_eq_some hfound)
    have same := List.find?_some hfound
    rw [List.inj_on_of_nodup_map names hq hp (beq_iff_eq.mp same)]

theorem property?_of_notMem {key : String} (hkey : key ∉ properties.map (·.property.name)) :
    type.property? key = none := by
  rw [type_eq, DefinitionType.property?, List.find?_eq_none]
  intro found hfound same
  obtain ⟨p, hp, rfl⟩ := List.mem_map.mp hfound
  exact hkey (List.mem_map.mpr ⟨p, hp, beq_iff_eq.mp same⟩)

end Properties

/-- A compiled definition that records are made of: its properties have shapes, and a type among
them must be present and has a slot. -/
structure ObjectShape (known : Reference → Prop) (properties : List CompiledProperty)
    (typeName : Option String) (c : CompiledDefinition) (t : RecordType) : Prop where
  schema_eq : c.schema = .fields (fieldsOf properties)
  type_eq : c.type = .object (properties.map (·.property))
  built : t.BuiltFrom c.nsid c.key (properties.map (·.rule)) typeName
  shapes : ∀ p ∈ properties, PropertyShape known p
  names : (properties.map (·.property.name)).Nodup
  typed : ∀ p ∈ properties, p.property.name = Naming.typeKey →
    p.rule.required = true ∧ typeName ≠ none

/-- What a compiled definition makes of values can be followed down to what is known. -/
inductive DefinitionShape (known : Reference → Prop) (c : CompiledDefinition) : Prop
  | value {t : FieldType} (shape : ValueShape known c.schema t) (plain : c.recordType = none)
  | object {properties : List CompiledProperty} {typeName : Option String} {t : RecordType}
      (shape : ObjectShape known properties typeName c t) (record : c.recordType = some t)

/-- The components that definitions are made into. -/
inductive Component.Made (nsid : String) : Component → Prop
  | object (body : ObjectBody) (typeName : Option String) : Made nsid (.object body typeName [])
  | record (body : ObjectBody) (typeName : String) :
      Made nsid (.object body (some typeName) [(Naming.typeKey, brandField typeName)])
  | call (d : Definition) (call : Call) (partKeys : List String) :
      Made nsid (.call (callFields nsid d call partKeys))
  | token : Made nsid .token
  | field (f : Field) : Made nsid (.field f)

theorem made_of_mem_components {nsid key : String} {d : Definition} {e : String × Component}
    (h : e ∈ d.components nsid key) : e.2.Made nsid := by
  have of_call {call : Call}
      (h : e ∈ (key, .call (callFields nsid d call ((d.parts call).map (·.1)))) ::
        (d.parts call).map fun p => (p.1, Component.ofPart p.2.1)) : e.2.Made nsid := by
    rcases List.mem_cons.mp h with rfl | h
    · exact .call d call _
    · obtain ⟨part, _, rfl⟩ := List.mem_map.mp h
      cases hbody : part.2.1 with
      | object body => exact .object body none
      | field f => exact .field f
  cases d with
  | query | procedure | subscription => exact of_call h
  | record body =>
    rw [List.mem_singleton.mp h]
    exact .record body _
  | object body =>
    rw [List.mem_singleton.mp h]
    exact .object body _
  | token =>
    rw [List.mem_singleton.mp h]
    exact .token
  | field f =>
    rw [List.mem_singleton.mp h]
    exact .field f

theorem accepts_text (t : String) : Schema.text.Accepts (.str t) :=
  Schema.accepts_iff.mpr ⟨.str t, rfl⟩

/-- The property that fixes the type of a record is regular. -/
theorem regular_brandField (typeName nsid : String) : (brandField typeName).Regular nsid := by
  refine .intro (by simp [brandField]) ?_ ?_ (by simp [brandField])
  · intro e he
    refine ⟨.text, ?_⟩
    simp only [brandField, List.mem_cons, List.not_mem_nil, or_false] at he
    rcases he with rfl | rfl
    all_goals
      refine ⟨?_, accepts_text typeName⟩
      simp [brandField, Language.options, Language.itemTypes, Language.stringField, Language.shape,
        Schema.fields, Entries.find?, Value.str?]
  · intro strict compiled v hcompiled hv
    obtain rfl := Except.ok.inj ((compile_brandField typeName nsid strict).symm.trans hcompiled)
    obtain rfl : Value.str typeName = v := Option.some.inj hv
    refine Schema.accepts_iff.mpr ⟨.str typeName, ?_⟩
    simp [Schema.checkWith, identical_str_eq_true_iff.mpr]

theorem not_refers_brandField {typeName nsid : String} {target : Reference} :
    ¬ (brandField typeName).Refers nsid target := by
  intro h
  cases h with
  | ref type => simp [brandField] at type
  | items type => simp [brandField] at type

/-- What the properties of a regular object are compiled from. -/
theorem Component.Made.properties {nsid : String} {body : ObjectBody} {typeName : Option String}
    {brand : Entries Field} (made : (Component.object body typeName brand).Made nsid)
    (regular : (Component.object body typeName brand).Regular nsid) :
    (body.properties.merge brand).keys.Nodup ∧
      (∀ e ∈ body.properties.merge brand, e.2.Regular nsid ∧
        ∀ target, e.2.Refers nsid target →
          (Component.object body typeName brand).Refers nsid target) ∧
      (typeName = none → Naming.typeKey ∉ (body.properties.merge brand).keys) := by
  obtain ⟨hnodup, hregular, htyped⟩ := regular
  cases made with
  | object =>
    exact ⟨hnodup, fun e he => ⟨hregular e he, fun _ refers => ⟨e, he, refers⟩⟩, htyped⟩
  | record _ name =>
    refine ⟨Entries.nodup_keys_insert hnodup _ _, fun e he => ?_, by simp⟩
    rcases Entries.mem_insert he with he | rfl
    · exact ⟨hregular e he, fun _ refers => ⟨e, he, refers⟩⟩
    · exact ⟨regular_brandField name nsid, fun _ refers => absurd refers not_refers_brandField⟩

theorem ObjectCompiles.shape {nsid key className : String} {strict : Bool} {body : ObjectBody}
    {typeName : Option String} {brand : Entries Field} {compiled : List CompiledProperty}
    {recordType : RecordType} {c : CompiledDefinition}
    (h : ObjectCompiles nsid key className strict body typeName brand compiled recordType c)
    (made : (Component.object body typeName brand).Made nsid)
    (regular : (Component.object body typeName brand).Regular nsid) {known : Reference → Prop}
    (hknown : ∀ target, (Component.object body typeName brand).Refers nsid target → known target) :
    ObjectShape known compiled typeName c recordType := by
  obtain ⟨hnodup, hregular, htyped⟩ := made.properties regular
  refine ⟨h.schema_eq, h.type_eq, ?_, fun p hp => ?_, h.names ▸ hnodup,
    fun p hp hname => ⟨?_, ?_⟩⟩
  · rw [h.nsid_eq, h.key_eq]
    exact RecordType.builtFrom_of_build h.build
  · obtain ⟨e, he, field, hfield, rfl⟩ := h.properties.exists_left hp
    obtain ⟨regular, refers⟩ := hregular e he
    have compiles := Field.compiles_of_outcome hfield
    exact .of (compiles.shape regular fun target ht => hknown target (refers target ht))
      compiles.marks.2 (compiles.defaultFits regular hfield)
  · obtain ⟨e, _, field, _, rfl⟩ := h.properties.exists_left hp
    exact mustBePresent_eq_true_iff.mpr (.inr hname)
  · intro untyped
    refine htyped untyped (h.names ▸ ?_)
    exact List.mem_map.mpr ⟨p, hp, hname⟩

private theorem shape_of_call {known : Reference → Prop} {nsid : String} {d : Definition}
    {call : Call} {partKeys : List String} {p : CompiledProperty}
    (hknown : ∀ target, (Component.call (callFields nsid d call partKeys)).Refers nsid target →
      known target) (hp : p ∈ callFields nsid d call partKeys) : PropertyShape known p := by
  rcases mem_callFields hp with ⟨key, _, required, rfl⟩ | rfl
  · exact .of (.ref (hknown _ ⟨_, hp, rfl⟩)) rfl
      ⟨fun _ => rfl, fun _ h => by simp [Schema.default?] at h⟩
  · exact .of (.plain (fun _ => Schema.rereads_any)
      (FieldType.isPlain_of_core (by simp [FieldType.core]) fun _ => rfl)) rfl
      ⟨fun _ => rfl, fun _ h => by simp [Schema.default?] at h⟩

private theorem names_of_call (nsid : String) (d : Definition) (call : Call)
    (partKeys : List String) :
    ((callFields nsid d call partKeys).map (·.property.name)).Nodup ∧
      ∀ p ∈ callFields nsid d call partKeys, p.property.name ≠ Naming.typeKey := by
  unfold callFields
  split_ifs <;> simp [partField, rawInputField, CompiledProperty.of, Naming.typeKey]

/-- A regular component is compiled to a definition with a shape, down to what it refers to. -/
theorem Component.Compiles.shape {nsid key : String} {strict : Bool} {component : Component}
    {c : CompiledDefinition} (h : component.Compiles nsid key strict c)
    (made : component.Made nsid) (regular : component.Regular nsid) {known : Reference → Prop}
    (hknown : ∀ target, component.Refers nsid target → known target) : DefinitionShape known c := by
  cases h with
  | object h => exact .object (h.shape made regular hknown) h.recordType_eq
  | call build =>
    cases made with
    | call d call partKeys =>
      obtain ⟨names, untyped⟩ := names_of_call nsid d call partKeys
      exact .object ⟨rfl, rfl, RecordType.builtFrom_of_build build,
        fun p hp => shape_of_call hknown hp, names,
        fun p hp hname => absurd hname (untyped p hp)⟩ rfl
  | token =>
    exact .value (t := .any) (.plain (fun _ => (Schema.Scalar.string _).rereads)
      (FieldType.isPlain_of_core (by simp [FieldType.core]) fun _ => rfl)) rfl
  | field hfield =>
    exact .value ((Field.compiles_of_outcome hfield).shape regular hknown) rfl

end Definition

end Lexicon
