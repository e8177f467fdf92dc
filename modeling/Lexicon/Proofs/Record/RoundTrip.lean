import Lexicon.Proofs.Record.Shape

/-!
# Records of written objects

What is made of a checked value is found again in its written form, as far as the references do the
same. Main statement: an object with a shape makes of its written record the same record, since each
slot that is written is checked to what it held, and each slot that is left out is filled as before.
-/

namespace Lexicon

namespace Definition

/-! ### Slots of properties -/

/-- The slot of a property: it is left out when it is null only if the property may be absent and
must not be null, and what it holds by default is the default of the property. -/
structure SlotOf (t : RecordType) (p : CompiledProperty) (slot : Slot) : Prop where
  key_eq : slot.key = p.property.name
  omitted : t.omitted.contains slot.key = (!p.rule.required && !p.rule.nullable)
  optional : p.rule.required = false →
    t.enforced.contains slot.key = false ∧ slot.default = p.rule.default.getD .null

section Slots

variable {known : Reference → Prop} {properties : List CompiledProperty}
  {typeName : Option String} {c : CompiledDefinition} {t : RecordType}

theorem mem_arrange_iff {rules : List SlotRule} {rule : SlotRule} :
    rule ∈ RecordType.arrange rules typeName ↔
      (rule ∈ rules ∧ rule.key ≠ Naming.typeKey) ∨
        ∃ name, typeName = some name ∧
          rule = { key := Naming.typeKey, default := some (.str name) } := by
  unfold RecordType.arrange
  cases typeName <;> simp

theorem PropertyShape.key_eq {p : CompiledProperty} (h : PropertyShape known p) :
    p.rule.key = p.property.name := by
  cases h
  rfl

private theorem ObjectShape.slotOf (shape : ObjectShape known properties typeName c t)
    {p : CompiledProperty} (hp : p ∈ properties) {rule : SlotRule}
    (hrule : rule ∈ RecordType.arrange (properties.map (·.rule)) typeName)
    (hkey : rule.key = p.property.name) (own : rule.key ≠ Naming.typeKey → rule = p.rule) :
    SlotOf t p (RecordType.slotOf rule) := by
  have omitted := shape.built.contains_omitted hrule
  have enforced := shape.built.contains_enforced hrule
  by_cases typed : rule.key = Naming.typeKey
  · have required := (shape.typed p hp (hkey ▸ typed)).1
    refine ⟨hkey, ?_, fun optional => by simp [required] at optional⟩
    change t.omitted.contains rule.key = _
    rw [omitted, required]
    simp [RecordType.isOmitted, typed]
  · obtain rfl := own typed
    refine ⟨hkey, ?_, fun optional => ⟨?_, rfl⟩⟩
    · change t.omitted.contains p.rule.key = _
      rw [omitted]
      simp [RecordType.isOmitted, typed]
    · change t.enforced.contains p.rule.key = _
      rw [enforced, RecordType.isEnforced, optional, Bool.false_and]

/-- Every property has a slot. -/
theorem ObjectShape.exists_slot (shape : ObjectShape known properties typeName c t)
    {p : CompiledProperty} (hp : p ∈ properties) : ∃ slot ∈ t.slots, SlotOf t p slot := by
  have key_eq := (shape.shapes p hp).key_eq
  rw [shape.built.slots_eq]
  by_cases typed : p.property.name = Naming.typeKey
  · obtain ⟨name, hname⟩ := Option.ne_none_iff_exists'.mp (shape.typed p hp typed).2
    have hrule : { key := Naming.typeKey, default := some (.str name) } ∈
        RecordType.arrange (properties.map (·.rule)) typeName :=
      mem_arrange_iff.mpr (.inr ⟨name, hname, rfl⟩)
    exact ⟨_, List.mem_map_of_mem hrule,
      shape.slotOf hp hrule typed.symm fun other => absurd rfl other⟩
  · have hrule : p.rule ∈ RecordType.arrange (properties.map (·.rule)) typeName :=
      mem_arrange_iff.mpr (.inl ⟨List.mem_map_of_mem hp, key_eq ▸ typed⟩)
    exact ⟨_, List.mem_map_of_mem hrule, shape.slotOf hp hrule key_eq fun _ => rfl⟩

/-- Every slot is that of a property, or holds the type of the record. -/
theorem ObjectShape.slot_cases (shape : ObjectShape known properties typeName c t) {slot : Slot}
    (hslot : slot ∈ t.slots) :
    (∃ p ∈ properties, SlotOf t p slot) ∨
      (slot.key ∉ properties.map (·.property.name) ∧ t.omitted.contains slot.key = false ∧
        slot.default.IsJson) := by
  rw [shape.built.slots_eq] at hslot
  obtain ⟨rule, hrule, rfl⟩ := List.mem_map.mp hslot
  rcases mem_arrange_iff.mp hrule with ⟨hmem, _⟩ | ⟨name, _, rfl⟩
  · obtain ⟨p, hp, rfl⟩ := List.mem_map.mp hmem
    exact .inl ⟨p, hp, shape.slotOf hp hrule (shape.shapes p hp).key_eq fun _ => rfl⟩
  · by_cases typed : Naming.typeKey ∈ properties.map (·.property.name)
    · obtain ⟨p, hp, hname⟩ := List.mem_map.mp typed
      exact .inl ⟨p, hp, shape.slotOf hp hrule hname.symm fun other => absurd rfl other⟩
    · refine .inr ⟨typed, ?_, .str name⟩
      have omitted := shape.built.contains_omitted hrule
      change t.omitted.contains Naming.typeKey = false
      rw [omitted]
      simp [RecordType.isOmitted]

end Slots

end Definition

/-! ### Values -/

section Values

variable {known : Reference → Prop} {follow : Reference → Value → Path → Check Unit Value}
  {bundles : String → Except Fault Bundle} {s : Schema} {t : FieldType}

theorem Value.hydrated_array (m : Value) (items : FieldType) :
    m.hydrated bundles (.array items) = Schema.dressItems (·.hydrated bundles items) m := by
  cases m with
  | list => exact Value.hydrated_list bundles _ _
  | object => exact Value.hydrated_object bundles _ _
  | _ => exact Value.hydrated_of_plain bundles (by simp) (by simp) _

/-- A schema makes of what it wrote the same value, if the known references do. -/
theorem ValueShape.rereads (shape : ValueShape known s t)
    (references : ∀ target, known target → (Schema.ref target).Rereads follow) :
    s.Rereads follow := by
  induction shape with
  | plain rereads => exact rereads follow
  | array _ bounds ih => exact ih.array bounds
  | ref h => exact references _ h

/-- What is made of a checked value is found again, if this holds of the known references. -/
theorem ValueShape.returns (shape : ValueShape known s t)
    (references : ∀ target, known target →
      (Schema.ref target).Returns follow (·.hydrated bundles (.ref target))) :
    s.Returns follow (·.hydrated bundles t) := by
  induction shape with
  | plain rereads plain => exact (rereads follow).returns (plain bundles)
  | array _ bounds ih =>
    simp only [Value.hydrated_array]
    exact ih.array bounds
  | ref h => exact references _ h

end Values

namespace Definition

section Properties

variable {known : Reference → Prop} {follow : Reference → Value → Path → Check Unit Value}
  {bundles : String → Except Fault Bundle} {p : CompiledProperty}

theorem PropertyShape.isRequired_eq (shape : PropertyShape known p) :
    p.schema.isRequired = p.rule.required := by
  cases shape with
  | of _ optional => exact CompiledProperty.isRequired_of optional

theorem PropertyShape.rereads (shape : PropertyShape known p)
    (references : ∀ target, known target → (Schema.ref target).Rereads follow) :
    p.schema.Rereads follow := by
  cases shape with
  | @of _ _ _ required nullable shape =>
    have core := shape.rereads references
    cases required <;> cases nullable
    · exact core
    · exact core.nullable
    · exact core.required
    · exact core.nullable.required

theorem PropertyShape.returns (shape : PropertyShape known p)
    (references : ∀ target, known target →
      (Schema.ref target).Returns follow (·.hydrated bundles (.ref target))) :
    p.schema.Returns follow (·.hydrated bundles p.property.type) := by
  cases shape with
  | @of _ _ compiled required nullable shape =>
    have core := shape.returns references
    have null : Value.null.hydrated bundles compiled.type = .ok .null :=
      Value.hydrated_of_plain bundles (by simp) (by simp) _
    cases required <;> cases nullable <;>
      simp only [CompiledProperty.of, Value.hydrated_nullable, if_true, Bool.false_eq_true,
        if_false]
    · exact core
    · exact core.nullable null
    · exact core.required
    · exact (core.nullable null).required

theorem PropertyShape.default_isJson (shape : PropertyShape known p) {d : Value}
    (hd : p.schema.default? = some d) : d.IsJson := by
  cases shape with
  | of _ _ fits => exact (fits.stated d (CompiledProperty.default?_of.symm.trans hd)).json

/-- The default of a property is accepted as it is. -/
theorem PropertyShape.checkWith_default (shape : PropertyShape known p) {d : Value}
    (hd : p.schema.default? = some d) (path : Path) :
    (p.schema.checkWith follow d path).outcome = .ok d := by
  cases shape with
  | of _ _ fits =>
    have stands := fits.stated d (CompiledProperty.default?_of.symm.trans hd)
    have hnull : d.isNull = false := by
      rw [← Bool.not_eq_true, isNull_eq_true_iff]
      rintro rfl
      exact stands.proper follow _ [] (stands.accepted follow [])
    rw [CompiledProperty.checkWith_of, hnull, Bool.and_false]
    exact stands.accepted follow path

/-- A property with a default makes null of no value, unless it may be null. -/
theorem PropertyShape.checkWith_ne_null (shape : PropertyShape known p) {d : Value}
    (hd : p.schema.default? = some d) (proper : p.rule.nullable = false) (v : Value)
    (path : Path) : (p.schema.checkWith follow v path).outcome ≠ .ok .null := by
  cases shape with
  | of _ _ fits =>
    have stands := fits.stated d (CompiledProperty.default?_of.symm.trans hd)
    obtain rfl : _ = false := proper
    rw [CompiledProperty.checkWith_of, Bool.false_and]
    exact stands.proper follow v path

/-- A property without a default holds null if there is nothing else. -/
theorem PropertyShape.unstated (shape : PropertyShape known p) (hnone : p.schema.default? = none) :
    p.rule.default.getD .null = .null := by
  cases shape with
  | of _ _ fits => exact fits.unstated (CompiledProperty.default?_of.symm.trans hnone)

theorem PropertyShape.checkWith_null (shape : PropertyShape known p)
    (nullable : p.rule.nullable = true) (path : Path) :
    (p.schema.checkWith follow .null path).outcome = .ok .null := by
  cases shape with
  | of =>
    obtain rfl : _ = true := nullable
    rw [CompiledProperty.checkWith_of]
    rfl

/-- What a property puts into the result was made of JSON. -/
theorem PropertyShape.exists_source (shape : PropertyShape known p) {es : Entries Value}
    (hes : (Value.object es).IsJson) {path : Path} {e : String × Value}
    (he : Schema.part follow es path p.property.name p.schema = .ok (some e)) :
    ∃ w, w.IsJson ∧
      (p.schema.checkWith follow w (path ++ [.key p.property.name])).outcome = .ok e.2 := by
  rcases Schema.part_eq_some_iff.mp he with ⟨x, y, hx, hy, rfl⟩ | ⟨-, d, hd, rfl⟩
  · exact ⟨x, hes.found hx, hy⟩
  · exact ⟨d, shape.default_isJson hd, shape.checkWith_default hd _⟩

variable {t : RecordType} {slot : Slot}

/-- A slot that is left out was filled from nothing or from null, and so it is again. -/
private theorem PropertyShape.exists_part_of_omitted (shape : PropertyShape known p)
    (own : SlotOf t p slot) {es written : Entries Value} (hes : (Value.object es).IsJson)
    {path : Path} {q : Option (String × Value)}
    (hq : Schema.part follow es path p.property.name p.schema = .ok q)
    (holds : t.Holds bundles slot (some p.property.type) (q.map Prod.snd) .null)
    (omitted : t.omitted.contains slot.key = true)
    (hwritten : written.find? p.property.name = none) :
    ∃ q', Schema.part follow written path p.property.name p.schema = .ok q' ∧
      t.Holds bundles slot (some p.property.type) (q'.map Prod.snd) .null := by
  rw [own.omitted, Bool.and_eq_true, Bool.not_eq_true', Bool.not_eq_true'] at omitted
  obtain ⟨optional, proper⟩ := omitted
  have unstated : p.schema.default? = none := by
    cases q with
    | none => exact (Schema.part_eq_none_iff.mp hq).2.1
    | some e =>
      cases holds with
      | made made =>
        obtain ⟨w, _, hw⟩ := shape.exists_source hes hq
        rw [Value.eq_null_of_hydrated bundles made] at hw
        by_contra stated
        obtain ⟨d, hd⟩ := Option.ne_none_iff_exists'.mp stated
        exact shape.checkWith_ne_null hd proper w _ hw
  obtain ⟨notEnforced, default_eq⟩ := own.optional optional
  refine ⟨none, Schema.part_eq_none_iff.mpr ⟨hwritten, unstated, ?_⟩, ?_⟩
  · rw [shape.isRequired_eq, optional]
  · have null : slot.default = .null := by rw [default_eq, shape.unstated unstated]
    exact null ▸ .default notEnforced

/-- What a slot holds is found again in what is written of it. -/
theorem PropertyShape.exists_part (shape : PropertyShape known p) (own : SlotOf t p slot)
    (references : ∀ target, known target →
      (Schema.ref target).Returns follow (·.hydrated bundles (.ref target)))
    {es written : Entries Value} (hes : (Value.object es).IsJson) {path : Path}
    {q : Option (String × Value)}
    (hq : Schema.part follow es path p.property.name p.schema = .ok q) {v : Value}
    (holds : t.Holds bundles slot (some p.property.type) (q.map Prod.snd) v)
    (hwritten : written.find? p.property.name =
      if v.isNull && t.omitted.contains slot.key then none else some v.encode) :
    ∃ q', Schema.part follow written path p.property.name p.schema = .ok q' ∧
      t.Holds bundles slot (some p.property.type) (q'.map Prod.snd) v := by
  by_cases left : (v.isNull && t.omitted.contains slot.key) = true
  · rw [if_pos left] at hwritten
    rw [Bool.and_eq_true, isNull_eq_true_iff] at left
    obtain ⟨rfl, omitted⟩ := left
    exact shape.exists_part_of_omitted own hes hq holds omitted hwritten
  · rw [if_neg left] at hwritten
    rw [Schema.part_of_found hwritten]
    cases q with
    | some e =>
      cases holds with
      | made made =>
        obtain ⟨w, json, hw⟩ := shape.exists_source hes hq
        obtain ⟨m, hm, made'⟩ := shape.returns references json hw made
        exact ⟨some (p.property.name, m), by rw [hm]; rfl, .made made'⟩
    | none =>
      cases holds with
      | default =>
        -- an absent value that is written must be allowed to be null
        obtain ⟨_, unstated, required⟩ := Schema.part_eq_none_iff.mp hq
        have optional := shape.isRequired_eq.symm.trans required
        have null : slot.default = .null := by
          rw [(own.optional optional).2, shape.unstated unstated]
        rw [null, own.omitted, optional] at left
        have nullable : p.rule.nullable = true := by simpa [Value.isNull] using left
        have encoded : Value.null.encode = .null := Value.encode_eq_null_iff.mpr rfl
        rw [null, encoded, shape.checkWith_null nullable]
        exact ⟨some (p.property.name, .null), rfl,
          .made (Value.hydrated_of_plain bundles (by simp) (by simp) _)⟩

end Properties

section Objects

variable {known : Reference → Prop} {follow : Reference → Value → Path → Check Unit Value}
  {bundles : String → Except Fault Bundle} {properties : List CompiledProperty}
  {typeName : Option String} {c : CompiledDefinition} {t : RecordType}

theorem ObjectShape.rename (shape : ObjectShape known properties typeName c t) (name : String) :
    ObjectShape known properties typeName c { t with name } :=
  { shape with built := shape.built.rename name }

/-- The schema of an object makes of what it wrote the same object, if the known references do. -/
theorem ObjectShape.rereads (shape : ObjectShape known properties typeName c t)
    (references : ∀ target, known target → (Schema.ref target).Rereads follow) :
    c.schema.Rereads follow := by
  rw [shape.schema_eq]
  refine Schema.rereads_fields (keys_fieldsOf properties ▸ shape.names) fun e he => ?_
  obtain ⟨p, hp, rfl⟩ := List.mem_map.mp he
  have property := shape.shapes p hp
  refine ⟨property.rereads references, fun d hd path => ?_⟩
  rw [(property.default_isJson hd).encode_eq]
  exact property.checkWith_default hd path

section Again

variable (shape : ObjectShape known properties typeName c t)
  (references : ∀ target, known target →
    (Schema.ref target).Returns follow (·.hydrated bundles (.ref target)))
  {es made : Entries Value} (hes : (Value.object es).IsJson) {path : Path}
  {parts : List (Option (String × Value))}
  (hparts : List.Forall₂ (fun e q => Schema.part follow es path e.1 e.2 = .ok q)
    (fieldsOf properties) parts)
  (hmade : t.attributesOf (RecordType.given bundles c.type
    (parts.filterMap id ++ Schema.undeclared (fieldsOf properties) es)) = .ok made)
  (cls : ClassId)

include shape references hes hparts hmade

/-- What the slot of a property holds is found again in the written form of a record. -/
private theorem exists_part_of_written {p : CompiledProperty} (hp : p ∈ properties) {slot : Slot}
    (hslot : slot ∈ t.slots) (own : SlotOf t p slot) :
    ∃ q v, Schema.part follow (t.written cls made) path p.property.name p.schema = .ok q ∧
      t.Holds bundles slot (some p.property.type) (q.map Prod.snd) v ∧
      made.find? slot.attr = some v := by
  obtain ⟨q, hq, hfound⟩ :=
    Schema.find?_checked hparts (keys_fieldsOf properties ▸ shape.names) (List.mem_map_of_mem hp)
  obtain ⟨v, holds, hv⟩ := RecordType.holds_of_attributesOf shape.built.attributes hmade hslot
  have written := RecordType.find?_written cls shape.built.keys hslot hv
  rw [own.key_eq, property?_of_mem shape.type_eq shape.names hp, hfound, Option.map_some] at holds
  nth_rewrite 1 [own.key_eq] at written
  obtain ⟨q', hq', holds'⟩ := (shape.shapes p hp).exists_part own references hes hq holds written
  exact ⟨q', v, hq', holds', hv⟩

/-- The written form of a record is accepted. -/
private theorem exists_parts_of_written :
    ∃ parts', List.Forall₂
      (fun e q => Schema.part follow (t.written cls made) path e.1 e.2 = .ok q)
      (fieldsOf properties) parts' := by
  refine List.exists_forall₂ fun e he => ?_
  obtain ⟨p, hp, rfl⟩ := List.mem_map.mp he
  obtain ⟨slot, hslot, own⟩ := shape.exists_slot hp
  obtain ⟨q, _, hq, _⟩ :=
    exists_part_of_written shape references hes hparts hmade cls hp hslot own
  exact ⟨q, hq⟩

/-- Of the checked written form of a record the same attributes are made. -/
private theorem attributesOf_of_written {parts' : List (Option (String × Value))}
    (hparts' : List.Forall₂
      (fun e q => Schema.part follow (t.written cls made) path e.1 e.2 = .ok q)
      (fieldsOf properties) parts') :
    t.attributesOf (RecordType.given bundles c.type
      (parts'.filterMap id ++ Schema.undeclared (fieldsOf properties) (t.written cls made))) =
        .ok made := by
  have again := fun {p} =>
    exists_part_of_written (p := p) shape references hes hparts hmade cls
  have attributes : made.keys.Nodup :=
    RecordType.keys_of_attributesOf hmade ▸ shape.built.attributes
  have keys : (Entries.keys (fieldsOf properties)).Nodup := keys_fieldsOf properties ▸ shape.names
  rw [RecordType.attributesOf_given_eq_ok_iff] at hmade ⊢
  refine hmade.imp_mem fun slot hslot a ha ⟨v, holds, ha_eq⟩ => ⟨v, ?_, ha_eq⟩
  subst ha_eq
  have hv : made.find? slot.attr = some v :=
    (Entries.find?_eq_some_iff attributes).mpr ha
  rcases shape.slot_cases hslot with ⟨p, hp, own⟩ | ⟨undeclared, kept, json⟩
  · obtain ⟨q, v', hq, holds', hv'⟩ := again hp hslot own
    obtain rfl := Option.some.inj (hv.symm.trans hv')
    obtain ⟨q', hq', hfound⟩ := Schema.find?_checked hparts' keys (List.mem_map_of_mem hp)
    obtain rfl := Except.ok.inj (hq.symm.trans hq')
    rw [own.key_eq, property?_of_mem shape.type_eq shape.names hp, hfound]
    exact holds'
  · have notMem : slot.key ∉ Entries.keys (fieldsOf properties) :=
      (keys_fieldsOf properties).symm ▸ undeclared
    have written := RecordType.find?_written cls shape.built.keys hslot hv
    rw [property?_of_notMem shape.type_eq undeclared,
      Schema.find?_checked_of_notMem hparts notMem] at holds
    rw [property?_of_notMem shape.type_eq undeclared,
      Schema.find?_checked_of_notMem hparts' notMem, written, kept, Bool.and_false,
      if_neg Bool.false_ne_true]
    have encoded : v.encode = v := by
      generalize hx : Entries.find? es slot.key = x at holds
      cases holds with
      | kept => exact (hes.found hx).encode_eq
      | default => exact json.encode_eq
    rw [encoded]
    exact .kept v

end Again

/-- A record that was made of JSON is made again of its written form. -/
theorem ObjectShape.exists_record (shape : ObjectShape known properties typeName c t)
    (references : ∀ target, known target →
      (Schema.ref target).Returns follow (·.hydrated bundles (.ref target)))
    {v : Value} {ms : Entries Value} (hv : v.IsJson) {path : Path}
    (hms : (c.schema.checkWith follow v path).outcome = .ok (.object ms)) {cls : ClassId}
    {x : Value} (hx : t.recordOf bundles c.type ms cls = .ok x) :
    ∃ ms', (c.schema.checkWith follow x.encode path).outcome = .ok (.object ms') ∧
      t.recordOf bundles c.type ms' cls = .ok x := by
  obtain ⟨made, hmade, rfl⟩ := Except.map_eq_ok_iff.mp hx
  rw [shape.schema_eq] at hms ⊢
  obtain ⟨es, parts, rfl, hparts, ⟨⟩⟩ := Schema.outcome_fields_eq_ok_iff.mp hms
  obtain ⟨parts', hparts'⟩ := exists_parts_of_written shape references hv hparts hmade cls
  have again := attributesOf_of_written shape references hv hparts hmade cls hparts'
  refine ⟨_, ?_, Except.map_eq_ok_iff.mpr ⟨made, again, rfl⟩⟩
  rw [RecordType.encode_record]
  exact Schema.outcome_fields_eq_ok_iff.mpr ⟨_, parts', rfl, hparts', rfl⟩

end Objects

end Definition

end Lexicon
