import Lexicon.Proofs.Compile.Definition
import Lexicon.Proofs.Record.Regular
import Lexicon.Proofs.Schema.Language

/-!
# Well-formed documents

The schema of documents does not look at everything that is read from a document: it takes items of
items as they come, and the list of the values of a truth value. A value is careful if these parts
have the form that the others must have. Main statement: a careful value that the schema of
documents accepts is read as a document, and the fields of the document say of themselves only what
the language declares for their types.
-/

namespace Lexicon

/-! ### Careful values -/

/-- The items of every field are a field, and the values of every truth value are listed. -/
structure Value.Careful (v : Value) : Prop where
  distinct : v.DistinctKeys
  items : v.EveryObject fun es => ∀ name x, es.find? "type" = some (.str name) →
    es.find? "items" = some x → x = .null ∨ Language.field.Accepts x
  enums : v.EveryObject fun es => es.find? "type" = some (.str "boolean") →
    es.find? "const" = none → ∀ x, es.find? "enum" = some x → ∃ xs, x.elements = .ok xs

namespace Value.Careful

theorem part {v x : Value} {path : Path} (h : v.Careful) (hx : Path.follow? path v = some x) :
    x.Careful where
  distinct := h.distinct.part hx
  items := h.items.part hx
  enums := h.enums.part hx

theorem find? {es : Entries Value} {key : String} {x : Value} (h : (Value.object es).Careful)
    (hx : es.find? key = some x) : x.Careful := by
  have reached : Path.follow? [.key key] (.object es) = some x := by
    rw [Path.follow?_key, hx]
    rfl
  exact h.part reached

theorem entry {es : Entries Value} {e : String × Value} (h : (Value.object es).Careful)
    (he : e ∈ es) : e.2.Careful :=
  h.part (h.distinct.follow?_entry he)

theorem item {v x : Value} {xs : List Value} (h : v.Careful) (hv : v = .list xs ∨ v = .tuple xs)
    (hx : x ∈ xs) : x.Careful := by
  obtain ⟨i, hi⟩ := List.mem_iff_getElem?.mp hx
  have reached : Path.follow? [.index i] v = some x := by
    rcases hv with rfl | rfl <;> simp [hi]
  exact h.part reached

end Value.Careful

/-! ### Granted values -/

namespace Schema

/-- A value is a careful one that a schema accepts, perhaps rearranged. -/
def Grants (s : Schema) (n : Value) : Prop :=
  ∃ v : Value, s.Accepts v ∧ v.Careful ∧ v.Rearranged n

variable {s : Schema} {n : Value}

theorem Grants.required (h : (Schema.required s).Grants n) : s.Grants n := by
  obtain ⟨v, accepted, h⟩ := h
  exact ⟨v, accepts_required.mp accepted, h⟩

theorem Grants.exists_str {rules : TextRules} (h : (string rules).Grants n) : ∃ t, n = .str t := by
  obtain ⟨v, accepted, -, arranged⟩ := h
  obtain ⟨t, rfl⟩ := accepted.exists_str
  exact ⟨t, arranged.eq_str⟩

theorem Grants.elements {bounds : Bounds} (h : (array s bounds).Grants n) :
    ∃ ys, n.elements = .ok ys ∧ ∀ y ∈ ys, s.Grants y := by
  obtain ⟨v, accepted, careful, arranged⟩ := h
  obtain ⟨xs, hv, accepted⟩ := accepted.items
  obtain ⟨ys, hys, parts⟩ := arranged.items hv
  refine ⟨ys, hys, fun y hy => ?_⟩
  obtain ⟨x, hx, hxy⟩ := parts.exists_left hy
  exact ⟨x, accepted x hx, careful.item hv hx, hxy⟩

theorem Grants.entries {keys : Option Schema} (h : (map s keys).Grants n) :
    ∃ ms, n = .object ms ∧ ∀ m ∈ ms, s.Grants m.2 := by
  obtain ⟨v, accepted, careful, arranged⟩ := h
  obtain ⟨es, rfl, accepts⟩ := accepted.map
  obtain ⟨ms, rfl, entries⟩ := arranged.entries
  refine ⟨ms, rfl, fun m hm => ?_⟩
  obtain ⟨x, hx, hxm⟩ := entries.members m hm
  exact ⟨x, accepts _ hx, careful.entry hx, hxm⟩

/-- The declared fields grant what stands under their keys, and those that must be present are. -/
structure GrantsFields (fields : List (String × Schema)) (ms : Entries Value) : Prop where
  part : ∀ {key : String} {field : Schema} {y : Value}, (key, field) ∈ fields →
    ms.find? key = some y → field.Grants y
  present : ∀ {key : String} {field : Schema}, (key, field) ∈ fields → field.isRequired = true →
    field.default? = none → ∃ y, ms.find? key = some y

theorem AcceptsFields.grants {fields : List (String × Schema)} {es ms : Entries Value}
    (h : AcceptsFields fields es) (careful : (Value.object es).Careful)
    (arranged : Value.RearrangedEntries es ms) : GrantsFields fields ms where
  part hfield hy := by
    obtain ⟨x, hx, hxy⟩ := arranged.of_find? careful.distinct.self hy
    exact ⟨x, h.part hfield hx, careful.find? hx, hxy⟩
  present hfield required plain := by
    obtain ⟨x, hx⟩ := h.present hfield required plain
    obtain ⟨y, hy, -⟩ := arranged.find? careful.distinct.self hx
    exact ⟨y, hy⟩

theorem Grants.fields {fields : List (String × Schema)} (h : (Schema.fields fields).Grants n) :
    ∃ ms, n = .object ms ∧ GrantsFields fields ms := by
  obtain ⟨v, accepted, careful, arranged⟩ := h
  obtain ⟨es, rfl, accepts⟩ := accepted.fields
  obtain ⟨ms, rfl, entries⟩ := arranged.entries
  exact ⟨ms, rfl, accepts.grants careful entries⟩

/-- A field that must be present is, and is granted. -/
theorem GrantsFields.found {fields : List (String × Schema)} {ms : Entries Value}
    (h : GrantsFields fields ms) (key : String) (hfield : (key, Schema.required s) ∈ fields)
    (plain : s.default? = none) : ∃ y, ms.find? key = some y ∧ s.Grants y := by
  obtain ⟨y, hy⟩ := h.present hfield rfl plain
  exact ⟨y, hy, (h.part hfield hy).required⟩

end Schema

/-! ### Fields -/

/-- An object that names its type and says of itself what the language declares for that type. Its
items are not looked at. -/
structure Language.IsField (es : Entries Value) (name : String) : Prop where
  type : es.find? "type" = some (.str name)
  declared : ∀ {key : String} {s : Schema} {x : Value}, (key, s) ∈ options (.str name) →
    key ≠ "items" → es.find? key = some x → s.Accepts x
  present : ∀ {key : String} {s : Schema}, (key, s) ∈ options (.str name) → key ≠ "items" →
    s.isRequired = true → ∃ x, es.find? key = some x

namespace Language

/-- The known types of properties by name. -/
def fieldTypes : List (String × Schema) :=
  itemTypes ++ [("array", arrayField)]

theorem allPlain_fieldTypes : AllPlain fieldTypes := by
  simp [fieldTypes]

/-- A definition has a type that is kept for the main one, the type of a field, or is an object or
a token. -/
theorem mem_definitionTypes_iff {name : String} {s : Schema} :
    (name, s) ∈ mainTypes ++ valueTypes ↔
      (name, s) ∈ mainTypes ∨ (name, s) ∈ fieldTypes ∨ (name = "object" ∧ s = objectDefinition) ∨
        name = "token" ∧ s = shape "token" [] := by
  simp [valueTypes, fieldTypes, or_assoc]

theorem options_of_find? {name : String} {fields : List (String × Schema)} {extra : Option Schema}
    {closed : Bool} (h : Entries.find? fieldTypes name = some (.object fields extra closed)) :
    options (.str name) = fields := by
  rw [fieldTypes] at h
  simp only [options, Value.str?, Option.bind_some, h]

theorem mem_options (name : String) {fields : List (String × Schema)}
    (h : Entries.find? fieldTypes name = some (.fields fields)) {e : String × Schema}
    (he : e ∈ fields) : e ∈ options (.str name) :=
  options_of_find? h ▸ he

theorem exists_of_mem_options {name key : String} {s : Schema}
    (h : (key, s) ∈ options (.str name)) : ∃ fields extra closed,
      Entries.find? fieldTypes name = some (.object fields extra closed) ∧ (key, s) ∈ fields := by
  simp only [options, Value.str?, Option.bind_some] at h
  split at h
  · next fields extra closed hs => exact ⟨fields, extra, closed, hs, h⟩
  · simp at h

theorem options_of_unknown {name : String} (h : Entries.find? fieldTypes name = none) :
    options (.str name) = [] := by
  rw [fieldTypes] at h
  simp only [options, Value.str?, Option.bind_some, h]

theorem default?_of_mem_options {name key : String} {s : Schema}
    (h : (key, s) ∈ options (.str name)) : s.default? = none := by
  obtain ⟨fields, extra, closed, hs, hfield⟩ := exists_of_mem_options h
  cases allPlain_fieldTypes _ (Entries.mem_of_find?_eq_some hs) with
  | object plain _ => exact (plain _ hfield).default?_eq_none

/-- A schema that declares what the language declares for a type accepts fields of the type. -/
theorem isField_of_fields {es : Entries Value} {name : String} {fields : List (String × Schema)}
    (type : es.find? "type" = some (.str name)) (accepts : Schema.AcceptsFields fields es)
    (declares : ∀ e ∈ options (.str name), e.1 ≠ "items" → e ∈ fields) : IsField es name where
  type := type
  declared hfield hkey hx := accepts.part (declares _ hfield hkey) hx
  present hfield hkey required :=
    accepts.present (declares _ hfield hkey) required (default?_of_mem_options hfield)

/-- What the schema of a type accepts is a field of the type. -/
theorem isField_of_variant {es : Entries Value} {name : String} {s : Schema}
    (hs : Entries.find? fieldTypes name = some s) (type : es.find? "type" = some (.str name))
    (accepted : s.Accepts (.object es)) : IsField es name := by
  by_cases object : ∃ fields extra closed, s = .object fields extra closed
  · obtain ⟨fields, extra, closed, rfl⟩ := object
    obtain ⟨_, ⟨⟩, accepts, -⟩ := accepted.object
    exact isField_of_fields type accepts fun e he _ => options_of_find? hs ▸ he
  · have none_declared {key : String} {field : Schema} (h : (key, field) ∈ options (.str name)) :
        False := by
      obtain ⟨fields, extra, closed, hs', -⟩ := exists_of_mem_options h
      exact object ⟨fields, extra, closed, Option.some.inj (hs.symm.trans hs')⟩
    exact ⟨type, fun h _ _ => (none_declared h).elim, fun h _ _ => (none_declared h).elim⟩

/-- What is accepted as a property of an object is a field. -/
theorem isField_of_accepts {v : Value} (h : field.Accepts v) :
    ∃ es name, v = .object es ∧ IsField es name := by
  obtain ⟨es, kind, s, rfl, hkind, chosen, accepted⟩ := h.tagged
  cases chosen with
  | @variant name _ hname hs =>
    subst hname
    exact ⟨es, name, rfl, isField_of_variant hs hkind accepted⟩
  | fallback hkind' hs =>
    obtain rfl := Option.some.inj hs
    obtain ⟨_, ⟨⟩, accepts⟩ := accepted.fields
    obtain ⟨name, rfl⟩ := (Schema.accepts_required.mp
      (accepts.part List.mem_cons_self hkind)).exists_str
    refine ⟨_, name, rfl, isField_of_fields hkind accepts fun e he _ => ?_⟩
    rw [options_of_unknown hkind'] at he
    cases he

/-- The types of parameters by name. -/
def parameterTypes : List (String × Schema) :=
  primitiveTypes ++ [("array", parameterArray)]

/-- What is declared for a type is declared for parameters of the type, items apart. -/
theorem declares_of_parameterTypes {name : String} {s : Schema}
    (hs : Entries.find? parameterTypes name = some s) :
    ∃ fields, s = .fields fields ∧ ∀ e ∈ options (.str name), e.1 ≠ "items" → e ∈ fields := by
  have mem := Entries.mem_of_find?_eq_some hs
  simp only [parameterTypes, primitiveTypes, List.cons_append, List.nil_append, List.mem_cons,
    Prod.mk.injEq, List.not_mem_nil, or_false] at mem
  rcases mem with ⟨rfl, rfl⟩ | ⟨rfl, rfl⟩ | ⟨rfl, rfl⟩ | ⟨rfl, rfl⟩ | ⟨rfl, rfl⟩
  all_goals refine ⟨_, rfl, fun e he items => ?_⟩
  iterate 4 exact he
  rw [options_of_find? (show Entries.find? fieldTypes "array" = some arrayField from rfl)] at he
  simp only [List.mem_cons] at he
  rcases he with rfl | rfl | rfl | he
  · simp
  · simp
  · simp at items
  · simp [he]

/-- What is accepted as a parameter of a call is a field. -/
theorem isField_of_parameter {v : Value} (h : parameter.Accepts v) :
    ∃ es name, v = .object es ∧ IsField es name := by
  obtain ⟨es, kind, s, rfl, hkind, chosen, accepted⟩ := h.tagged
  cases chosen with
  | @variant name _ hname hs =>
    subst hname
    obtain ⟨fields, rfl, declares⟩ := declares_of_parameterTypes hs
    obtain ⟨_, ⟨⟩, accepts⟩ := accepted.fields
    exact ⟨es, name, rfl, isField_of_fields hkind accepts declares⟩
  | fallback _ hs => simp at hs

end Language

/-! ### Well-formed definitions -/

/-- A field that says of itself what the language declares for its type, and whose items are so. -/
inductive Field.WellFormed : Field → Prop
  | intro {f : Field} {name : String} (type : f.type = .str name)
      (declared : ∀ {key : String} {s : Schema} {y : Value}, (key, s) ∈ Language.options f.type →
        f.options.find? key = some y → s.Grants y)
      (present : ∀ {key : String} {s : Schema}, (key, s) ∈ Language.options f.type →
        key ∉ ["type", "items", "description"] → s.isRequired = true →
        ∃ y, f.options.find? key = some y)
      (enum : name = "boolean" → f.options.find? "const" = none →
        ∀ y, f.options.find? "enum" = some y → ∃ ys, y.elements = .ok ys)
      (items : ∀ item, f.items = some item → WellFormed item) : WellFormed f

/-- An object of well-formed fields that names its required and its nullable properties. -/
structure ObjectBody.WellFormed (body : ObjectBody) : Prop where
  properties : ∀ e ∈ body.properties, e.2.WellFormed
  required : ∀ name ∈ body.required, ∃ t, name = .str t
  nullable : ∀ name ∈ body.nullable, ∃ t, name = .str t

/-- A component made of well-formed fields. -/
def Definition.Component.WellFormed : Component → Prop
  | .object body _ _ => body.WellFormed
  | .field f => f.WellFormed
  | .call _ | .token => True

/-! ### Reading fields -/

theorem Value.elements_of_rearranged {v n : Value} {xs : List Value} (h : v.Rearranged n)
    (hv : v.elements = .ok xs) : ∃ ys, n.elements = .ok ys := by
  cases h with
  | refl => exact ⟨xs, hv⟩
  | list => exact ⟨_, rfl⟩
  | object => exact ⟨_, rfl⟩

theorem Field.itemsOf_eq (es : Entries Value) :
    itemsOf es = match es.find? "items" with
      | none => .ok none
      | some x => if x.isNull then .ok none else (ofValue x).map some := by
  induction es with
  | nil => rfl
  | cons e rest ih =>
    obtain ⟨key, x⟩ := e
    simp only [itemsOf, Entries.find?]
    split_ifs with hkey
    · simp [*]
    · simp [*]
    · simp [*]

/-- A field is read as a well-formed field, however it is arranged. -/
theorem Language.IsField.exists_field {es : Entries Value} {name : String} (h : IsField es name)
    (careful : (Value.object es).Careful) {n : Value} (hn : (Value.object es).Rearranged n) :
    ∃ f, Field.ofValue n = .ok f ∧ f.WellFormed := by
  obtain ⟨ms, rfl, entries⟩ := hn.entries
  have distinct := careful.distinct.self
  obtain ⟨t, ht, arranged⟩ := entries.find? distinct h.type
  obtain rfl := arranged.eq_str
  -- the items are careful too and less deep, so the theorem holds of them
  have items : ∃ item?, Field.itemsOf ms = .ok item? ∧ ∀ item, item? = some item →
      item.WellFormed := by
    rw [Field.itemsOf_eq]
    cases hy : Entries.find? ms "items" with
    | none => exact ⟨none, rfl, nofun⟩
    | some y =>
      obtain ⟨x, hx, hxy⟩ := entries.of_find? distinct hy
      rcases careful.items.self name x h.type hx with rfl | accepted
      · exact ⟨none, by rw [hxy.eq_null]; rfl, nofun⟩
      · obtain ⟨es', name', rfl, isField⟩ := isField_of_accepts accepted
        obtain ⟨item, hitem, wellFormed⟩ := isField.exists_field (careful.find? hx) hxy
        obtain ⟨ms', rfl, -⟩ := hxy.entries
        refine ⟨some item, by simp [Value.isNull, hitem, Except.map], ?_⟩
        rintro _ ⟨⟩
        exact wellFormed
  obtain ⟨item?, hitems, wellFormed⟩ := items
  let own := ["type", "items", "description"]
  have found (key : String) : Entries.find? (ms.filter fun e => e.1 ∉ own) key =
      if key ∉ own then Entries.find? ms key else none := by
    rw [Entries.find?_filter (fun k => decide (k ∉ own))]
    simp only [decide_eq_true_eq]
  refine ⟨⟨.str name, ms.filter fun e => e.1 ∉ own, item?, Entries.getValue ms "description"⟩,
    by simp [Field.ofValue, Value.member, ht, hitems, own], ?_⟩
  refine .intro rfl (fun {key s y} hs hy => ?_) (fun {key s} hs hkey required => ?_)
    (fun boolean const y hy => ?_) wellFormed
  · rw [found] at hy
    split_ifs at hy with hkey
    obtain ⟨x, hx, hxy⟩ := entries.of_find? distinct hy
    exact ⟨x, h.declared hs (by rintro rfl; simp [own] at hkey) hx, careful.find? hx, hxy⟩
  · obtain ⟨x, hx⟩ := h.present hs (by rintro rfl; simp at hkey) required
    obtain ⟨y, hy, -⟩ := entries.find? distinct hx
    exact ⟨y, by rw [found, if_pos hkey, hy]⟩
  · rw [found, if_pos (by simp [own])] at const hy
    obtain ⟨x, hx, hxy⟩ := entries.of_find? distinct hy
    have absent : es.find? "const" = none := by
      cases hc : Entries.find? es "const" with
      | none => rfl
      | some c =>
        obtain ⟨y', hy', -⟩ := entries.find? distinct hc
        rw [const] at hy'
        cases hy'
    obtain ⟨xs, hxs⟩ := careful.enums.self (boolean ▸ h.type) absent x hx
    exact Value.elements_of_rearranged hxy hxs
termination_by (Value.object es).depth
decreasing_by
  exact Value.depth_lt_of_found hx

/-! ### Reading definitions -/

theorem Schema.GrantsFields.exists_elementsOf {fields : List (String × Schema)}
    {ms : Entries Value} (h : GrantsFields fields ms) (key : String) {s : Schema}
    (hfield : (key, Schema.array s {}) ∈ fields) :
    ∃ ys, elementsOf ms key = .ok ys ∧ ∀ y ∈ ys, s.Grants y := by
  unfold elementsOf
  cases hy : Entries.find? ms key with
  | none => exact ⟨[], rfl, nofun⟩
  | some y => exact (h.part hfield hy).elements

theorem exists_partOf {α : Type} {read : Value → Except Fault α} {Q : α → Prop}
    {ms : Entries Value} {key : String}
    (h : ∀ y, ms.find? key = some y → ∃ a, read y = .ok a ∧ Q a) :
    ∃ a?, partOf read ms key = .ok a? ∧ ∀ a, a? = some a → Q a := by
  unfold partOf Entries.getValue
  cases hy : Entries.find? ms key with
  | none => exact ⟨none, rfl, nofun⟩
  | some y =>
    by_cases null : y = .null
    · subst null
      exact ⟨none, rfl, nofun⟩
    · obtain ⟨a, ha, holds⟩ := h y hy
      have present : (Value.ofOption (some y)).present? = some y := by
        cases y <;> first | rfl | exact absurd rfl null
      refine ⟨some a, by rw [present, Option.mapM_some, ha]; rfl, ?_⟩
      rintro _ ⟨⟩
      exact holds

theorem exists_propertiesOf {ms : Entries Value} {s : Schema} {y : Value}
    (hy : ms.find? "properties" = some y) (granted : (Schema.map s none).Grants y)
    (hs : ∀ v, s.Accepts v → ∃ es name, v = .object es ∧ Language.IsField es name) :
    ∃ ps, propertiesOf ms = .ok ps ∧ ∀ e ∈ ps, e.2.WellFormed := by
  obtain ⟨entries, rfl, members⟩ := granted.entries
  have properties : propertiesOf ms =
      entries.mapM fun e => return (e.1, ← Field.ofValue e.2) := by
    simp [propertiesOf, hy, Value.entries]
  rw [properties]
  refine Except.exists_mapM fun e he => ?_
  obtain ⟨v, accepted, careful, arranged⟩ := members e he
  obtain ⟨es, name, rfl, isField⟩ := hs v accepted
  obtain ⟨f, hf, wellFormed⟩ := isField.exists_field careful arranged
  exact ⟨(e.1, f), by rw [hf]; rfl, wellFormed⟩

theorem ObjectBody.exists_ofValue {n : Value} (h : Language.objectDefinition.Grants n) :
    ∃ body, ofValue n = .ok body ∧ body.WellFormed := by
  obtain ⟨ms, rfl, fields⟩ := Schema.Grants.fields h
  obtain ⟨y, hy, granted⟩ := fields.found "properties" (s := .map Language.field none)
    (by simp) rfl
  obtain ⟨properties, hproperties, wellFormed⟩ :=
    exists_propertiesOf hy granted fun _ => Language.isField_of_accepts
  obtain ⟨required, hrequired, requiredTexts⟩ := fields.exists_elementsOf "required" (s := .text)
    (by simp [Language.texts])
  obtain ⟨nullable, hnullable, nullableTexts⟩ := fields.exists_elementsOf "nullable" (s := .text)
    (by simp [Language.texts])
  refine ⟨⟨properties, required, nullable, Entries.getValue ms "description"⟩, ?_,
    wellFormed, fun name hname => (requiredTexts name hname).exists_str,
    fun name hname => (nullableTexts name hname).exists_str⟩
  simp [ofValue, Value.entries, hproperties, hrequired, hnullable]

/-- Parameters of a call are an object without nullable properties. -/
def Parameters.WellFormed (p : Parameters) : Prop :=
  ObjectBody.WellFormed
    { properties := p.properties, required := p.required, description := p.description }

theorem Parameters.exists_ofValue {n : Value} (h : Language.parameters.Grants n) :
    ∃ p, ofValue n = .ok p ∧ p.WellFormed := by
  obtain ⟨ms, rfl, fields⟩ := Schema.Grants.fields h
  obtain ⟨y, hy, granted⟩ := fields.found "properties" (s := .map Language.parameter none)
    (by simp [Language.parameter]) rfl
  obtain ⟨properties, hproperties, wellFormed⟩ :=
    exists_propertiesOf hy granted fun _ => Language.isField_of_parameter
  obtain ⟨required, hrequired, requiredTexts⟩ := fields.exists_elementsOf "required" (s := .text)
    (by simp [Language.texts])
  refine ⟨⟨properties, required, Entries.getValue ms "description"⟩, ?_,
    wellFormed, fun name hname => (requiredTexts name hname).exists_str,
    fun _ hname => absurd hname List.not_mem_nil⟩
  simp [ofValue, Value.entries, hproperties, hrequired]

/-- The schema of a body that is made of well-formed fields. -/
def BodySchema.WellFormed (b : BodySchema) : Prop :=
  (Definition.Component.ofPart b).WellFormed

theorem BodySchema.exists_ofValue {n : Value} (h : Language.bodySchema.Grants n) :
    ∃ b, ofValue n = .ok b ∧ b.WellFormed := by
  obtain ⟨v, accepted, careful, arranged⟩ := h
  obtain ⟨es, kind, s, rfl, hkind, chosen, byVariant⟩ := accepted.tagged
  obtain ⟨ms, rfl, entries⟩ := arranged.entries
  cases chosen with
  | @variant name _ hname hs =>
    subst hname
    obtain ⟨t, ht, same⟩ := entries.find? careful.distinct.self hkind
    obtain rfl := same.eq_str
    have mem := Entries.mem_of_find?_eq_some hs
    simp only [List.mem_cons, Prod.mk.injEq, List.not_mem_nil, or_false] at mem
    rcases mem with ⟨rfl, rfl⟩ | field
    · obtain ⟨body, hbody, wellFormed⟩ :=
        ObjectBody.exists_ofValue ⟨_, byVariant, careful, arranged⟩
      exact ⟨.object body, by simp [ofValue, Value.member, ht, Value.same, hbody], wellFormed⟩
    · have isField : Language.IsField es name := by
        refine Language.isField_of_variant ?_ hkind byVariant
        rcases field with ⟨rfl, rfl⟩ | ⟨rfl, rfl⟩ <;> rfl
      obtain ⟨f, hf, wellFormed⟩ := isField.exists_field careful arranged
      refine ⟨.field f, ?_, wellFormed⟩
      rcases field with ⟨rfl, rfl⟩ | ⟨rfl, rfl⟩ <;>
        simp [ofValue, Value.member, ht, Value.same, hf]
  | fallback _ hs => simp at hs

/-- A body whose schema is well-formed, if it has one. -/
def Body.WellFormed (b : Body) : Prop :=
  ∀ schema, b.schema = some schema → schema.WellFormed

/-- A body or a message is read as a well-formed body. -/
theorem Body.exists_ofValue {bodyFields : List (String × Schema)} {n : Value}
    (hfield : ("schema", Language.bodySchema) ∈ bodyFields)
    (h : (Schema.fields bodyFields).Grants n) :
    ∃ b, ofValue n = .ok b ∧ b.WellFormed := by
  obtain ⟨ms, rfl, fields⟩ := h.fields
  obtain ⟨schema?, hschema, wellFormed⟩ := exists_partOf fun _ hy =>
    BodySchema.exists_ofValue (fields.part hfield hy)
  refine ⟨⟨Entries.getValue ms "encoding", schema?, Entries.getValue ms "description"⟩, ?_,
    wellFormed⟩
  rw [partOf] at hschema
  simp [ofValue, Value.entries, hschema]

theorem exists_body {fields bodyFields : List (String × Schema)} {ms : Entries Value}
    (h : Schema.GrantsFields fields ms) (key : String)
    (hfield : (key, Schema.fields bodyFields) ∈ fields)
    (hschema : ("schema", Language.bodySchema) ∈ bodyFields) :
    ∃ b?, partOf Body.ofValue ms key = .ok b? ∧ ∀ b, b? = some b → b.WellFormed :=
  exists_partOf fun _ hy => Body.exists_ofValue hschema (h.part hfield hy)

theorem exists_parameters {fields : List (String × Schema)} {ms : Entries Value}
    (h : Schema.GrantsFields fields ms) (hfield : ("parameters", Language.parameters) ∈ fields) :
    ∃ p?, partOf Parameters.ofValue ms "parameters" = .ok p? ∧ ∀ p, p? = some p → p.WellFormed :=
  exists_partOf fun _ hy => Parameters.exists_ofValue (h.part hfield hy)

theorem exists_errorsOf {fields : List (String × Schema)} {ms : Entries Value}
    (h : Schema.GrantsFields fields ms) (hfield : ("errors", Language.errors) ∈ fields) :
    ∃ errors, errorsOf ms = .ok errors := by
  obtain ⟨ys, hys, granted⟩ := h.exists_elementsOf "errors" hfield
  have each : ∀ y ∈ ys, ∃ error, NamedError.ofValue y = .ok error ∧ True := by
    intro y hy
    obtain ⟨ms', rfl, named⟩ := (granted y hy).fields
    obtain ⟨name, hname, -⟩ := named.found "name" (s := .text) (by simp) rfl
    exact ⟨⟨name, Entries.getValue ms' "description"⟩,
      by simp [NamedError.ofValue, Value.member, hname, Value.entries], trivial⟩
  obtain ⟨errors, herrors, -⟩ := Except.exists_mapM each
  exact ⟨errors, by simp [errorsOf, hys, herrors]⟩

namespace Definition

/-- A definition whose components are well-formed. -/
def WellFormed (d : Definition) : Prop :=
  ∀ nsid key, ∀ e ∈ d.components nsid key, e.2.WellFormed

/-- What holds of the parameters of a call, taken as an object, and of the schemas of its bodies
holds of all its parts. -/
theorem forall_parts {P : BodySchema → Prop} {d : Definition} {call : Call}
    (parameters : ∀ p, call.parameters = some p → P (.object
      { properties := p.properties, required := p.required, description := p.description }))
    (bodies : ∀ b ∈ d.bodies, ∀ body, b.2 = some body → ∀ schema, body.schema = some schema →
      P schema) :
    ∀ p ∈ d.parts call, P p.2.1 := by
  intro p hp
  rcases List.mem_append.mp hp with hp | hp
  · obtain ⟨params, hparams, rfl⟩ := Option.map_eq_some_iff.mp (Option.mem_toList.mp hp)
    exact parameters params hparams
  · obtain ⟨b, hb, hp⟩ := List.mem_filterMap.mp hp
    obtain ⟨body, hbody, hp⟩ := Option.bind_eq_some_iff.mp hp
    obtain ⟨schema, hschema, rfl⟩ := Option.map_eq_some_iff.mp hp
    exact bodies b hb body hbody schema hschema

/-- What holds of the fields of a call and of its parts holds of all its components. -/
theorem forall_components_of_call {P : Component → Prop} {d : Definition} {call : Call}
    (hcall : d.call? = some call) (fields : ∀ properties, P (.call properties))
    (parts : ∀ p ∈ d.parts call, P (.ofPart p.2.1)) (nsid key : String) :
    ∀ e ∈ d.components nsid key, P e.2 := by
  intro e he
  cases d with
  | query | procedure | subscription =>
    obtain rfl := Option.some.inj hcall
    rcases List.mem_cons.mp he with rfl | he
    · exact fields _
    · obtain ⟨p, hp, rfl⟩ := List.mem_map.mp he
      exact parts p hp
  | _ => cases hcall

theorem wellFormed_of_call {d : Definition} {call : Call} (hcall : d.call? = some call)
    (parameters : ∀ p, call.parameters = some p → p.WellFormed)
    (bodies : ∀ b ∈ d.bodies, ∀ body, b.2 = some body → body.WellFormed) : d.WellFormed :=
  forall_components_of_call hcall (fun _ => trivial) (forall_parts parameters bodies)

/-- A definition of a type of values is read as a field. -/
theorem ofValue_of_fieldTypes {name : String} (hname : name ∈ Entries.keys Language.fieldTypes)
    {ms : Entries Value} (type : ms.find? "type" = some (.str name)) :
    ofValue (.object ms) = .field <$> Field.ofValue (.object ms) := by
  simp only [Entries.keys, Language.fieldTypes, Language.itemTypes, List.map_cons, List.map_nil,
    List.cons_append, List.nil_append, List.mem_cons, List.not_mem_nil, or_false] at hname
  rcases hname with rfl | rfl | rfl | rfl | rfl | rfl | rfl | rfl | rfl | rfl <;>
    simp [ofValue, Value.member, type, Value.entries]

/-- A definition with one component is as well-formed as the component. -/
theorem wellFormed_of_component {d : Definition}
    (h : ∀ nsid key, ∃ component : Component,
      d.components nsid key = [(key, component)] ∧ component.WellFormed) : d.WellFormed := by
  intro nsid key e he
  obtain ⟨component, components, wellFormed⟩ := h nsid key
  rw [components] at he
  obtain rfl := List.mem_singleton.mp he
  exact wellFormed

theorem exists_record {ms : Entries Value} (type : ms.find? "type" = some (.str "record"))
    (granted : Language.recordDefinition.Grants (.object ms)) :
    ∃ d, ofValue (.object ms) = .ok d ∧ d.WellFormed := by
  obtain ⟨_, ⟨⟩, fields⟩ := Schema.Grants.fields granted
  obtain ⟨record, hrecord, grantedRecord⟩ := fields.found "record"
    (s := Language.objectDefinition) (by simp) rfl
  obtain ⟨body, hbody, wellFormed⟩ := ObjectBody.exists_ofValue grantedRecord
  refine ⟨.record body (Entries.getValue ms "key") (Entries.getValue ms "description"), ?_, ?_⟩
  · simp [ofValue, Value.member, type, Value.entries, hrecord, hbody]
  · exact wellFormed_of_component fun _ _ => ⟨_, rfl, wellFormed⟩

/-- A query, a procedure or a subscription. -/
theorem exists_call {ms : Entries Value} {name : String} {s : Schema}
    (hs : (name, s) ∈ Language.mainTypes) (other : name ≠ "record")
    (type : ms.find? "type" = some (.str name)) (granted : s.Grants (.object ms)) :
    ∃ d, ofValue (.object ms) = .ok d ∧ d.WellFormed := by
  simp only [Language.mainTypes, List.mem_cons, Prod.mk.injEq, List.not_mem_nil, or_false] at hs
  rcases hs with ⟨rfl, rfl⟩ | ⟨rfl, rfl⟩ | ⟨rfl, rfl⟩ | ⟨rfl, rfl⟩
  · exact absurd rfl other
  all_goals
    obtain ⟨_, ⟨⟩, fields⟩ := Schema.Grants.fields granted
    obtain ⟨params?, hparams, wellFormedParams⟩ := exists_parameters fields (by simp)
    obtain ⟨errors, herrors⟩ := exists_errorsOf fields (by simp)
  · obtain ⟨output?, houtput, wellFormed⟩ := exists_body fields "output"
      (show ("output", Language.body) ∈ _ by simp) (by simp)
    refine ⟨.query ⟨params?, errors, Entries.getValue ms "description"⟩ output?, ?_,
      wellFormed_of_call rfl wellFormedParams ?_⟩
    · simp [ofValue, Value.member, type, Value.entries, hparams, houtput, herrors]
    · simpa [bodies] using wellFormed
  · obtain ⟨input?, hinput, wellFormedInput⟩ := exists_body fields "input"
      (show ("input", Language.body) ∈ _ by simp) (by simp)
    obtain ⟨output?, houtput, wellFormedOutput⟩ := exists_body fields "output"
      (show ("output", Language.body) ∈ _ by simp) (by simp)
    refine ⟨.procedure ⟨params?, errors, Entries.getValue ms "description"⟩ input? output?, ?_,
      wellFormed_of_call rfl wellFormedParams ?_⟩
    · simp [ofValue, Value.member, type, Value.entries, hparams, hinput, houtput, herrors]
    · simpa [bodies] using ⟨wellFormedInput, wellFormedOutput⟩
  · obtain ⟨message?, hmessage, wellFormed⟩ := exists_body fields "message"
      (show ("message", Language.message) ∈ _ by simp) (by simp)
    refine ⟨.subscription ⟨params?, errors, Entries.getValue ms "description"⟩ message?, ?_,
      wellFormed_of_call rfl wellFormedParams ?_⟩
    · simp [ofValue, Value.member, type, Value.entries, hparams, hmessage, herrors]
    · simpa [bodies] using wellFormed

/-- What the schema of its type accepts is read as a well-formed definition, however it is
arranged. -/
theorem exists_ofValue {es : Entries Value} {name : String} {s : Schema}
    (hs : (name, s) ∈ Language.mainTypes ++ Language.valueTypes)
    (type : es.find? "type" = some (.str name)) (accepted : s.Accepts (.object es))
    (careful : (Value.object es).Careful) {n : Value} (arranged : (Value.object es).Rearranged n) :
    ∃ d, ofValue n = .ok d ∧ d.WellFormed := by
  obtain ⟨ms, rfl, entries⟩ := arranged.entries
  obtain ⟨t, ht, same⟩ := entries.find? careful.distinct.self type
  obtain rfl := same.eq_str
  have granted : s.Grants (.object ms) := ⟨_, accepted, careful, arranged⟩
  rcases Language.mem_definitionTypes_iff.mp hs with main | field | ⟨rfl, rfl⟩ | ⟨rfl, rfl⟩
  · by_cases record : name = "record"
    · subst record
      have found : Entries.find? Language.mainTypes "record" = some s :=
        (Entries.find?_eq_some_iff (by decide)).mpr main
      obtain rfl := Option.some.inj found
      exact exists_record ht granted
    · exact exists_call main record ht granted
  · have found := (Entries.find?_eq_some_iff (by decide)).mpr field
    obtain ⟨f, hf, wellFormed⟩ :=
      (Language.isField_of_variant found type accepted).exists_field careful arranged
    refine ⟨.field f, ?_, wellFormed_of_component fun _ _ => ⟨_, rfl, wellFormed⟩⟩
    rw [ofValue_of_fieldTypes (Entries.mem_keys_of_mem field) ht, hf, Except.ok_map]
  · obtain ⟨body, hbody, wellFormed⟩ := ObjectBody.exists_ofValue granted
    refine ⟨.object body, ?_, wellFormed_of_component fun _ _ => ⟨_, rfl, wellFormed⟩⟩
    simp [ofValue, Value.member, ht, Value.entries, hbody]
  · refine ⟨.token (Entries.getValue ms "description"), ?_,
      wellFormed_of_component fun _ _ => ⟨_, rfl, trivial⟩⟩
    simp [ofValue, Value.member, ht, Value.entries, Except.pure_eq_ok]

end Definition

/-! ### Reading documents -/

namespace Document

/-- No definition other than the main one has a list or an object for its type. -/
def NamesTypes (v : Value) : Prop :=
  ∀ definitions, v.member "defs" = .ok (.object definitions) → ∀ e ∈ definitions,
    e.1 ≠ mainKey → ∀ es, e.2 = .object es → (Entries.getValue es "type").isKey

/-- A document whose definitions are well-formed. -/
def WellFormed (d : Document) : Prop :=
  ∀ e ∈ d.definitions, e.2.WellFormed

theorem faultsAre_checkPlace {id name : String} {definition : Value}
    (h : name ≠ mainKey → ∀ es, definition = .object es → (Entries.getValue es "type").isKey) :
    FaultsAre Fault.IsCompile (checkPlace id name definition) := by
  unfold checkPlace
  dsimp only
  split_ifs with main unhashable
  · exact .ok _
  · exfalso
    split at unhashable
    · next es => simp [h main es rfl] at unhashable
    · simp [Value.isKey] at unhashable
  · split
    · split_ifs
      · exact FaultsAre.compile _
      · exact .ok _
    · exact .ok _

/-- Under any name a definition is accepted by the schema of its type. -/
theorem exists_variant {ds : Entries Value} (distinct : ds.keys.Nodup)
    (accepted : definitionsSchema.Accepts (.object ds)) {e : String × Value} (he : e ∈ ds) :
    ∃ es name s, e.2 = .object es ∧ Entries.find? es "type" = some (.str name) ∧
      (name, s) ∈ Language.mainTypes ++ Language.valueTypes ∧ s.Accepts e.2 := by
  obtain ⟨_, ⟨⟩, main, others⟩ := (Schema.accepts_required.mp accepted).object
  have chosen {variants : List (String × Schema)}
      (h : (Schema.tagged "type" variants none).Accepts e.2)
      (among : variants ⊆ Language.mainTypes ++ Language.valueTypes) :
      ∃ es name s, e.2 = .object es ∧ Entries.find? es "type" = some (.str name) ∧
        (name, s) ∈ Language.mainTypes ++ Language.valueTypes ∧ s.Accepts e.2 := by
    obtain ⟨es, kind, s, hes, hkind, chosen, byVariant⟩ := h.tagged
    cases chosen with
    | @variant name _ hname hs =>
      subst hname
      exact ⟨es, name, s, hes, hkind, among (Entries.mem_of_find?_eq_some hs), byVariant⟩
    | fallback _ hs => simp at hs
  by_cases isMain : e.1 = "main"
  · have found : ds.find? "main" = some e.2 :=
      isMain ▸ (Entries.find?_eq_some_iff distinct).mpr he
    exact chosen (main.part List.mem_cons_self found) fun _ h => h
  · exact chosen (others _ rfl rfl e he (by simpa [Entries.keys] using isMain))
      (List.subset_append_right _ _)

/-- The definitions of a careful document that the schema of documents accepts are read. -/
theorem exists_definitions {es ms : Entries Value}
    (accepted : Language.document.Accepts (.object es)) (careful : (Value.object es).Careful)
    (arranged : Value.RearrangedEntries es ms) :
    ∃ definitions made, ms.find? "defs" = some (.object definitions) ∧
      (definitions.mapM fun e => return (e.1, ← Definition.ofValue e.2)) = .ok made ∧
        ∀ e ∈ made, e.2.WellFormed := by
  obtain ⟨_, ⟨⟩, fields⟩ := Schema.Accepts.fields accepted
  obtain ⟨x, hx, acceptedDefs⟩ := fields.found "defs" (show ("defs", definitionsSchema) ∈ _ by
    simp [definitionsSchema]) rfl
  obtain ⟨ds, rfl, -⟩ := acceptedDefs.object
  have carefulDefs := careful.find? hx
  obtain ⟨_, hms, arrangedDefs⟩ := arranged.find? careful.distinct.self hx
  obtain ⟨definitions, rfl, entries⟩ := arrangedDefs.entries
  have each : ∀ e ∈ definitions, ∃ made : String × Definition,
      (do return (e.1, ← Definition.ofValue e.2) : Except Fault _) = .ok made ∧
        made.2.WellFormed := by
    intro e he
    obtain ⟨v, hv, arranged⟩ := entries.members e he
    obtain ⟨es', name, s, hes', type, hs, accepted⟩ :=
      exists_variant carefulDefs.distinct.self (Schema.accepts_required.mpr acceptedDefs) hv
    obtain rfl : v = .object es' := hes'
    obtain ⟨d, hd, wellFormed⟩ :=
      Definition.exists_ofValue hs type accepted (carefulDefs.entry hv) arranged
    exact ⟨(e.1, d), by rw [hd]; rfl, wellFormed⟩
  obtain ⟨made, hmade, wellFormed⟩ := Except.exists_mapM each
  exact ⟨definitions, made, hms, hmade, wellFormed⟩

/-- What the schema of documents makes of a value is the value rearranged, and holds a version. -/
theorem exists_checked {es : Entries Value} {checked : Value}
    (h : Language.document.plainVerdict (.object es) = .ok (.ok checked))
    (careful : (Value.object es).Careful) :
    ∃ ms, checked = .object ms ∧ Value.RearrangedEntries es ms ∧
      ∃ version, Entries.find? ms "lexicon" = some version := by
  obtain ⟨ms, rfl, entries⟩ :=
    (Language.plain_document.rearranged (Schema.outcome_of_plainVerdict h)).entries
  obtain ⟨_, ⟨⟩, fields⟩ := Schema.Accepts.fields ⟨_, h⟩
  obtain ⟨version, hversion, -⟩ := fields.found "lexicon" (s := .literal (.int 1)) (by simp) rfl
  obtain ⟨version', hversion', -⟩ := entries.find? careful.distinct.self hversion
  exact ⟨ms, rfl, entries, version', hversion'⟩

theorem faultsAre_ofEntries {es : Entries Value} (careful : (Value.object es).Careful)
    (types : NamesTypes (.object es)) : FaultsAre Fault.IsCompile (ofEntries es) := by
  obtain ⟨verdict, hverdict⟩ := Language.plain_document.exists_verdict (.object es)
  simp only [ofEntries, hverdict]
  split_ifs
  · split
    on_goal 1 =>
      rename_i definitions hdefs
      have found : (Value.object es).member "defs" = .ok (.object definitions) := by
        cases hx : Entries.find? es "defs" with
        | none => simp [Entries.getValue, hx, Value.ofOption] at hdefs
        | some x => simpa [Entries.getValue, hx, Value.ofOption, Value.member] using hdefs
      refine .bind (.forM fun e he => faultsAre_checkPlace (types definitions found e he))
        fun _ _ => ?_
    -- with or without definitions to place, what is accepted is read from what the check made of it
    all_goals
      rw [Except.ok_bind]
      cases verdict with
      | error failure => exact FaultsAre.compile _
      | ok checked =>
        obtain ⟨ms, rfl, entries, version, hversion⟩ := exists_checked hverdict careful
        obtain ⟨definitions, made, hdefs, hmade, -⟩ :=
          exists_definitions ⟨_, hverdict⟩ careful entries
        simp only [Value.entries, Value.member, hdefs, hmade, hversion, Except.ok_bind,
          FaultsAre.pure]
  all_goals exact FaultsAre.compile _

/-- A careful value is read as a document of well-formed fields, or does not compile. -/
theorem wellFormed_of_ofEntries {es : Entries Value} {d : Document} (h : ofEntries es = .ok d)
    (careful : (Value.object es).Careful) : d.WellFormed := by
  obtain ⟨checked, made, read⟩ := exists_readFrom_of_ofEntries h
  obtain ⟨_, ⟨⟩, entries, -⟩ := exists_checked read.verdict careful
  obtain ⟨made', definitions, hdefs, hmade, wellFormed⟩ :=
    exists_definitions ⟨_, read.verdict⟩ careful entries
  have defs := read.defs
  rw [Value.member, hdefs] at defs
  obtain rfl := Value.object.inj (Except.ok.inj defs)
  obtain rfl := Except.ok.inj ((Entries.mapM_eq_ok_iff.mpr read.each).symm.trans hmade)
  exact wellFormed

end Document

end Lexicon
