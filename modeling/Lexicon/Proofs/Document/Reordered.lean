import Lexicon.Proofs.Document.Indistinct
import Lexicon.Proofs.Registry.Addressable
import Lexicon.Proofs.Schema.Reordered

/-!
# Documents of reordered values

Parsers follow the order of the entries that they are given, and stop at the first that cannot be
read; but the schema of documents has made readable what it accepts, in any order. Main statement:
values that differ only in the order of entries are read as documents alike, and the two documents
are equal, so that a registry that was given one of them answers the other with the same bundle.
-/

namespace Lexicon

open Schema (Turns TurnsFields)

/-! ### Parts of reordered objects -/

theorem Value.Reordered.present? {v w : Value} (h : v.Reordered w) :
    Option.Rel Reordered v.present? w.present? := by
  cases h with
  | refl =>
    cases v with
    | null => exact .none
    | _ => exact .some (.refl _)
  | list items => exact .some (.list items)
  | object order entries => exact .some (.object order entries)

theorem Value.Reordered.member {v w x : Value} (h : v.Reordered w) (distinct : v.DistinctKeys)
    {key : String} (hx : v.member key = .ok x) : ∃ y, w.member key = .ok y ∧ x.Reordered y := by
  cases v with
  | object es =>
    obtain ⟨_, ms, rfl, -⟩ := h.exists_of_object
    rw [member_eq_ok_iff] at hx
    rcases (h.find? distinct.self key).none_or_some with ⟨absent, -⟩ | ⟨x', y, hx', hy, reordered⟩
    · cases hx.symm.trans absent
    · obtain rfl := Option.some.inj (hx.symm.trans hx')
      exact ⟨y, member_eq_ok_iff.mpr hy, reordered⟩
  | _ => cases hx

theorem Entries.find?_of_present? {es : Entries Value} {key : String} {x : Value}
    (h : (es.getValue key).present? = some x) : es.find? key = some x := by
  rw [getValue] at h
  cases hx : es.find? key with
  | none =>
    rw [hx] at h
    cases h
  | some y =>
    rw [hx] at h
    rw [← Field.present?_eq_some h]
    rfl

section

variable {es ms : Entries Value} (decoded : (Value.object es).Decoded)
  (reordered : (Value.object es).Reordered (.object ms))

include decoded reordered

theorem indistinct_getValue (key : String) :
    Indistinct Value.same (es.getValue key) (ms.getValue key) :=
  (reordered.getValue decoded.distinct.self key).indistinct (decoded.getValue key)

/-- A part is read from reordered entries if what stands under its key is. -/
theorem exists_partOf_of_reordered {α : Type} {read : Value → Except Fault α} {equal : α → α → Bool}
    {key : String} {part : Option α} (h : partOf read es key = .ok part)
    (each : ∀ x y a, es.find? key = some x → x.Reordered y → read x = .ok a →
      ∃ b, read y = .ok b ∧ Indistinct equal a b) :
    ∃ part', partOf read ms key = .ok part' ∧ Indistinct (equalOptions equal) part part' := by
  unfold partOf at h ⊢
  have present := (reordered.getValue decoded.distinct.self key).present?
  rcases present.none_or_some with ⟨hx, hy⟩ | ⟨x, y, hx, hy, hxy⟩
  · rw [hx] at h
    obtain rfl := Except.ok.inj h
    exact ⟨none, by rw [hy]; rfl, indistinct_options .none⟩
  · rw [hx, Option.mapM_some] at h
    obtain ⟨a, ha, rfl⟩ := Except.map_eq_ok_iff.mp h
    obtain ⟨b, hb, indistinct⟩ := each x y a (Entries.find?_of_present? hx) hxy ha
    refine ⟨some b, ?_, indistinct_options (.some indistinct)⟩
    rw [hy, Option.mapM_some, hb]
    rfl

end

/-! ### Fields -/

/-- The items of a field are a part of it. -/
theorem Field.itemsOf_eq_partOf (es : Entries Value) :
    itemsOf es = partOf ofValue es "items" := by
  rw [itemsOf_eq, partOf, Entries.getValue]
  cases es.find? "items" with
  | none => rfl
  | some x => cases x <;> rfl

/-- A field is read from a reordered value. The induction is on the depth of the value. -/
theorem Field.exists_of_reordered {v w : Value} (decoded : v.Decoded) (reordered : v.Reordered w)
    {f : Field} (hf : ofValue v = .ok f) :
    ∃ f', ofValue w = .ok f' ∧ Indistinct Field.same f f' := by
  induction v using Value.depth_induction generalizing w f with
  | step v ih =>
  cases v with
  | object es =>
    obtain ⟨zs, ms, rfl, order, entries⟩ := reordered.exists_of_object
    have options := (decoded_of_ofValue decoded hf).options
    rw [ofValue] at hf
    obtain ⟨type, htype, hf⟩ := Except.bind_eq_ok_iff.mp hf
    obtain ⟨items, hitems, hf⟩ := Except.bind_eq_ok_iff.mp hf
    obtain rfl := Except.ok.inj hf
    rw [itemsOf_eq_partOf] at hitems
    obtain ⟨type', htype', types⟩ := reordered.member decoded.distinct htype
    obtain ⟨items', hitems', indistinct⟩ := exists_partOf_of_reordered decoded reordered hitems
      fun x y item hx hxy hitem => by
        have mem := Entries.mem_of_find?_eq_some hx
        exact ih x (Value.depth_lt_of_mem_entries mem) (decoded.entry _ mem) hxy hitem
    let own := ["type", "items", "description"]
    have kept : (Value.object (es.filter fun e => e.1 ∉ own)).Reordered
        (.object (ms.filter fun e => e.1 ∉ own)) :=
      .object (order.filter _) (Entries.filter_of_under (fun key => decide (key ∉ own)) entries)
    refine ⟨⟨type', ms.filter fun e => e.1 ∉ own, items', Entries.getValue ms "description"⟩,
      ?_, Field.indistinct (types.indistinct (decoded.member htype)) (kept.indistinct options)
        indistinct (indistinct_getValue decoded reordered _)⟩
    rw [ofValue, htype', Except.ok_bind, itemsOf_eq_partOf, hitems']
    rfl
  | _ => cases hf

/-! ### Objects -/

/-- What a schema makes of a value is read, in any order of entries, as the same part. -/
def ReadsReordered {α : Type} (s : Schema) (read : Value → Except Fault α) (equal : α → α → Bool) :
    Prop :=
  ∀ ⦃v n m : Value⦄ ⦃a : α⦄, s.Turns v n → n.Decoded → n.Reordered m → read n = .ok a →
    ∃ b, read m = .ok b ∧ Indistinct equal a b

section

variable {fields : List (String × Schema)} {given es ms : Entries Value}
  (parts : TurnsFields fields given es) (decoded : (Value.object es).Decoded)
  (reordered : (Value.object es).Reordered (.object ms))

include decoded reordered

theorem exists_propertiesOf_of_reordered {ps : Entries Field} (h : propertiesOf es = .ok ps) :
    ∃ qs, propertiesOf ms = .ok qs ∧ Indistinct (Entries.agree Field.same) ps qs := by
  obtain ⟨names, -⟩ := decoded_of_propertiesOf decoded h
  obtain ⟨properties, hproperties, read⟩ := propertiesOf_eq_ok_iff.mp h
  have found : ∃ properties', (ms.find? "properties").getD (.object []) = .object properties' ∧
      (Value.object properties).Reordered (.object properties') ∧
        (Value.object properties).Decoded := by
    rcases (reordered.find? decoded.distinct.self "properties").none_or_some with
      ⟨hx, hy⟩ | ⟨x, y, hx, hy, hxy⟩
    · rw [hx] at hproperties
      obtain rfl := Value.object.inj hproperties
      exact ⟨[], by rw [hy]; rfl, .refl _, .object List.nodup_nil nofun⟩
    · rw [hx] at hproperties
      obtain rfl : x = .object properties := hproperties
      obtain ⟨_, properties', rfl, -⟩ := hxy.exists_of_object
      exact ⟨properties', by rw [hy]; rfl, hxy, decoded.entry _ (Entries.mem_of_find?_eq_some hx)⟩
  obtain ⟨properties', hproperties', hxy, each⟩ := found
  obtain ⟨zs, _, ⟨⟩, order, entries⟩ := hxy.exists_of_object
  obtain ⟨cs, qs, read', order', indistinct⟩ := Entries.exists_of_perm
    (fun _ x f => Field.ofValue x = .ok f) (fun _ x f => Field.ofValue x = .ok f)
    order entries read fun e he y f hxy hf => Field.exists_of_reordered (each.entry e he) hxy hf
  exact ⟨qs, propertiesOf_eq_ok_iff.mpr ⟨properties', hproperties', read'⟩,
    Entries.indistinct_agree names order' indistinct⟩

include parts

theorem ReadsReordered.partOf {α : Type} {s : Schema} {read : Value → Except Fault α}
    {equal : α → α → Bool} (h : ReadsReordered s read equal) {key : String}
    (hfield : (key, s) ∈ fields) (plain : s.default? = none) {part : Option α}
    (hpart : Lexicon.partOf read es key = .ok part) :
    ∃ part', Lexicon.partOf read ms key = .ok part' ∧
      Indistinct (equalOptions equal) part part' := by
  refine exists_partOf_of_reordered decoded reordered hpart fun x y a hx hxy ha => ?_
  obtain ⟨_, -, turned⟩ := parts.part hfield plain hx
  exact h turned (decoded.entry _ (Entries.mem_of_find?_eq_some hx)) hxy ha

/-- What the schema of a list has made is walked through in its own order. -/
theorem exists_elementsOf_of_reordered {key : String} {items : Schema} {bounds : Bounds}
    (hfield : (key, .array items bounds) ∈ fields) {xs : List Value}
    (h : elementsOf es key = .ok xs) :
    ∃ ys, elementsOf ms key = .ok ys ∧ List.Forall₂ Value.Reordered xs ys ∧
      ∀ x ∈ xs, x.Decoded := by
  rw [elementsOf] at h ⊢
  rcases (reordered.find? decoded.distinct.self key).none_or_some with
    ⟨hx, hy⟩ | ⟨x, y, hx, hy, hxy⟩
  · rw [hx] at h
    obtain rfl := Except.ok.inj h
    exact ⟨[], by rw [hy]; rfl, .nil, nofun⟩
  · rw [hx] at h
    obtain ⟨_, -, path, turned⟩ := parts.part hfield rfl hx
    obtain ⟨_, list, -, rfl, -⟩ := Schema.forall₂_of_array turned
    obtain rfl := Except.ok.inj h
    obtain ⟨ys, rfl, lists⟩ := hxy.exists_of_list
    exact ⟨ys, by rw [hy]; rfl, lists, (decoded.entry _ (Entries.mem_of_find?_eq_some hx)).item⟩

theorem exists_texts_of_reordered {key : String} (hfield : (key, Language.texts) ∈ fields)
    {xs : List Value} (h : elementsOf es key = .ok xs) :
    ∃ ys, elementsOf ms key = .ok ys ∧ Indistinct Value.sameItems xs ys := by
  obtain ⟨ys, hys, items, each⟩ := exists_elementsOf_of_reordered parts decoded reordered hfield h
  exact ⟨ys, hys, Value.indistinct_items items each⟩

end

theorem ObjectBody.readsReordered :
    ReadsReordered Language.objectDefinition ofValue ObjectBody.same := by
  intro v n m body turned decoded reordered h
  obtain ⟨_, es, rfl, rfl, parts⟩ := Turns.fields (by decide) turned
  obtain ⟨_, ms, rfl, -⟩ := reordered.exists_of_object
  simp only [ofValue, Value.entries, Except.ok_bind, Except.bind_eq_ok_iff] at h
  obtain ⟨properties, hproperties, required, hrequired, nullable, hnullable, h⟩ := h
  obtain rfl := Except.ok.inj h
  obtain ⟨properties', hproperties', sameProperties⟩ :=
    exists_propertiesOf_of_reordered decoded reordered hproperties
  obtain ⟨required', hrequired', sameRequired⟩ :=
    exists_texts_of_reordered parts decoded reordered (by simp) hrequired
  obtain ⟨nullable', hnullable', sameNullable⟩ :=
    exists_texts_of_reordered parts decoded reordered (by simp) hnullable
  refine ⟨⟨properties', required', nullable', ms.getValue "description"⟩, ?_,
    ObjectBody.indistinct sameProperties sameRequired sameNullable
      (indistinct_getValue decoded reordered _)⟩
  simp only [ofValue, Value.entries, Except.ok_bind, hproperties', hrequired', hnullable']
  rfl

theorem Parameters.readsReordered :
    ReadsReordered Language.parameters ofValue Parameters.same := by
  intro v n m p turned decoded reordered h
  obtain ⟨_, es, rfl, rfl, parts⟩ := Turns.fields (by decide) turned
  obtain ⟨_, ms, rfl, -⟩ := reordered.exists_of_object
  simp only [ofValue, Value.entries, Except.ok_bind, Except.bind_eq_ok_iff] at h
  obtain ⟨properties, hproperties, required, hrequired, h⟩ := h
  obtain rfl := Except.ok.inj h
  obtain ⟨properties', hproperties', sameProperties⟩ :=
    exists_propertiesOf_of_reordered decoded reordered hproperties
  obtain ⟨required', hrequired', sameRequired⟩ :=
    exists_texts_of_reordered parts decoded reordered (by simp) hrequired
  refine ⟨⟨properties', required', ms.getValue "description"⟩, ?_,
    Parameters.indistinct sameProperties sameRequired (indistinct_getValue decoded reordered _)⟩
  simp only [ofValue, Value.entries, Except.ok_bind, hproperties', hrequired']
  rfl

theorem BodySchema.readsReordered :
    ReadsReordered Language.bodySchema ofValue BodySchema.same := by
  intro v n m b turned decoded reordered h
  obtain ⟨type, htype, h⟩ := Except.bind_eq_ok_iff.mp h
  obtain ⟨type', htype', types⟩ := reordered.member decoded.distinct htype
  split_ifs at h with object
  · obtain ⟨body, hbody, h⟩ := Except.bind_eq_ok_iff.mp h
    obtain rfl := Except.ok.inj h
    obtain ⟨body', hbody', same⟩ := ObjectBody.readsReordered
      (Language.turns_objectDefinition turned htype object) decoded reordered hbody
    rw [types.same_eq] at object
    refine ⟨.object body', ?_, indistinct_object same⟩
    rw [ofValue, htype', Except.ok_bind, if_pos object, hbody']
    rfl
  · obtain ⟨f, hf, h⟩ := Except.bind_eq_ok_iff.mp h
    obtain rfl := Except.ok.inj h
    obtain ⟨f', hf', same⟩ := Field.exists_of_reordered decoded reordered hf
    rw [types.same_eq] at object
    refine ⟨.field f', ?_, indistinct_field same⟩
    rw [ofValue, htype', Except.ok_bind, if_neg object, hf']
    rfl

theorem Body.readsReordered {s : Schema} (hs : Language.HasSchema s) :
    ReadsReordered s ofValue Body.same := by
  intro v n m b turned decoded reordered h
  obtain ⟨fields, rfl, hfield, nodup⟩ := hs
  obtain ⟨_, es, rfl, rfl, parts⟩ := turned.fields nodup
  obtain ⟨_, ms, rfl, -⟩ := reordered.exists_of_object
  simp only [ofValue, Value.entries, Except.ok_bind, Except.bind_eq_ok_iff] at h
  obtain ⟨schema, hschema, h⟩ := h
  obtain rfl := Except.ok.inj h
  obtain ⟨schema', hschema', same⟩ :=
    BodySchema.readsReordered.partOf parts decoded reordered hfield rfl hschema
  rw [partOf] at hschema'
  refine ⟨⟨ms.getValue "encoding", schema', ms.getValue "description"⟩, ?_, Body.indistinct
    (indistinct_getValue decoded reordered _) same (indistinct_getValue decoded reordered _)⟩
  simp only [ofValue, Value.entries, Except.ok_bind, hschema']
  rfl

theorem NamedError.exists_of_reordered {v w : Value} (decoded : v.Decoded)
    (reordered : v.Reordered w) {e : NamedError} (h : ofValue v = .ok e) :
    ∃ e', ofValue w = .ok e' ∧ Indistinct NamedError.same e e' := by
  simp only [ofValue, Except.bind_eq_ok_iff, Value.entries_eq_ok_iff] at h
  obtain ⟨name, hname, es, rfl, h⟩ := h
  obtain rfl := Except.ok.inj h
  obtain ⟨_, ms, rfl, -⟩ := reordered.exists_of_object
  obtain ⟨name', hname', names⟩ := reordered.member decoded.distinct hname
  refine ⟨⟨name', ms.getValue "description"⟩, ?_, NamedError.indistinct
    (names.indistinct (decoded.member hname)) (indistinct_getValue decoded reordered _)⟩
  rw [ofValue, hname']
  rfl

theorem NamedError.exists_mapM_of_reordered {xs ys : List Value} {errors : List NamedError}
    (items : List.Forall₂ Value.Reordered xs ys) (decoded : ∀ x ∈ xs, x.Decoded)
    (h : xs.mapM ofValue = .ok errors) :
    ∃ errors', ys.mapM ofValue = .ok errors' ∧
      List.Forall₂ (Indistinct NamedError.same) errors errors' := by
  rw [Except.mapM_eq_ok_iff] at h
  induction items generalizing errors with
  | nil =>
    cases h
    exact ⟨[], rfl, .nil⟩
  | cons hxy _ ih =>
    cases h with
    | cons first rest =>
      rw [List.forall_mem_cons] at decoded
      obtain ⟨e', he', same⟩ := exists_of_reordered decoded.1 hxy first
      obtain ⟨errors', herrors', indistinct⟩ := ih decoded.2 rest
      refine ⟨e' :: errors', ?_, .cons same indistinct⟩
      rw [List.mapM_cons, he', Except.ok_bind, herrors']
      rfl

/-! ### Definitions -/

section

variable {fields : List (String × Schema)} {given es ms : Entries Value}
  (parts : TurnsFields fields given es) (decoded : (Value.object es).Decoded)
  (reordered : (Value.object es).Reordered (.object ms))

include parts decoded reordered

theorem exists_errorsOf_of_reordered (hfield : ("errors", Language.errors) ∈ fields)
    {errors : List NamedError} (h : errorsOf es = .ok errors) :
    ∃ errors', errorsOf ms = .ok errors' ∧ Indistinct NamedError.sameList errors errors' := by
  obtain ⟨xs, hxs, h⟩ := Except.bind_eq_ok_iff.mp h
  obtain ⟨ys, hys, items, each⟩ :=
    exists_elementsOf_of_reordered parts decoded reordered hfield hxs
  obtain ⟨errors', herrors', indistinct⟩ := NamedError.exists_mapM_of_reordered items each h
  exact ⟨errors', by rw [errorsOf, hys, Except.ok_bind, herrors'],
    NamedError.indistinct_list indistinct⟩

/-- What all calls have is read from reordered entries. -/
theorem exists_call_of_reordered (hparameters : ("parameters", Language.parameters) ∈ fields)
    (herrors : ("errors", Language.errors) ∈ fields) {parameters : Option Parameters}
    {errors : List NamedError} (hp : partOf Parameters.ofValue es "parameters" = .ok parameters)
    (he : errorsOf es = .ok errors) :
    ∃ parameters' errors', partOf Parameters.ofValue ms "parameters" = .ok parameters' ∧
      errorsOf ms = .ok errors' ∧ Indistinct Call.same
        ⟨parameters, errors, es.getValue "description"⟩
        ⟨parameters', errors', ms.getValue "description"⟩ := by
  obtain ⟨parameters', hp', sameParameters⟩ :=
    Parameters.readsReordered.partOf parts decoded reordered hparameters rfl hp
  obtain ⟨errors', he', sameErrors⟩ :=
    exists_errorsOf_of_reordered parts decoded reordered herrors he
  exact ⟨parameters', errors', hp', he',
    Call.indistinct sameParameters sameErrors (indistinct_getValue decoded reordered _)⟩

/-- Records and calls are read from reordered entries. -/
theorem Definition.exists_of_mainTypes {name : String} {d : Definition}
    (main : (name, Schema.fields fields) ∈ Language.mainTypes)
    (type : es.find? "type" = some (.str name)) (type' : ms.find? "type" = some (.str name))
    (hd : ofValue (.object es) = .ok d) :
    ∃ d', ofValue (.object ms) = .ok d' ∧ Indistinct Definition.same d d' := by
  simp only [Language.mainTypes, List.mem_cons, Prod.mk.injEq, List.not_mem_nil, or_false] at main
  rcases main with ⟨rfl, same⟩ | ⟨rfl, same⟩ | ⟨rfl, same⟩ | ⟨rfl, same⟩
  all_goals
    obtain ⟨rfl, -⟩ := Schema.object.inj same
    simp only [ofValue, Value.member_eq_ok_iff.mpr type, Value.member_eq_ok_iff.mpr type',
      Value.entries, Except.ok_bind, Except.bind_eq_ok_iff] at hd ⊢
  · obtain ⟨record, hrecord, body, hbody, hd⟩ := hd
    obtain rfl := Except.ok.inj hd
    obtain ⟨record', hrecord', records⟩ := reordered.member decoded.distinct hrecord
    obtain ⟨_, -, turned⟩ := parts.part
      (show ("record", Schema.required Language.objectDefinition) ∈ _ by simp) rfl
      (Value.member_eq_ok_iff.mp hrecord)
    obtain ⟨body', hbody', same⟩ := ObjectBody.readsReordered
      (Schema.turns_required_iff.mp turned) (decoded.member hrecord) records hbody
    exact ⟨_, ⟨record', hrecord', body', hbody', rfl⟩, indistinct_record same
      (indistinct_getValue decoded reordered _) (indistinct_getValue decoded reordered _)⟩
  · obtain ⟨parameters, hparameters, output, houtput, errors, herrors, hd⟩ := hd
    obtain rfl := Except.ok.inj hd
    obtain ⟨parameters', errors', hparameters', herrors', call⟩ := exists_call_of_reordered parts
      decoded reordered (by simp) (by simp) hparameters herrors
    obtain ⟨output', houtput', outputs⟩ := (Body.readsReordered Language.hasSchema_body).partOf
      parts decoded reordered (by simp) rfl houtput
    exact ⟨_, ⟨parameters', hparameters', output', houtput', errors', herrors', rfl⟩,
      indistinct_query call outputs⟩
  · obtain ⟨parameters, hparameters, input, hinput, output, houtput, errors, herrors, hd⟩ := hd
    obtain rfl := Except.ok.inj hd
    obtain ⟨parameters', errors', hparameters', herrors', call⟩ := exists_call_of_reordered parts
      decoded reordered (by simp) (by simp) hparameters herrors
    obtain ⟨input', hinput', inputs⟩ := (Body.readsReordered Language.hasSchema_body).partOf
      parts decoded reordered (by simp) rfl hinput
    obtain ⟨output', houtput', outputs⟩ := (Body.readsReordered Language.hasSchema_body).partOf
      parts decoded reordered (by simp) rfl houtput
    exact ⟨_, ⟨parameters', hparameters', input', hinput', output', houtput', errors', herrors',
      rfl⟩, indistinct_procedure call inputs outputs⟩
  · obtain ⟨parameters, hparameters, message, hmessage, errors, herrors, hd⟩ := hd
    obtain rfl := Except.ok.inj hd
    obtain ⟨parameters', errors', hparameters', herrors', call⟩ := exists_call_of_reordered parts
      decoded reordered (by simp) (by simp) hparameters herrors
    obtain ⟨message', hmessage', messages⟩ :=
      (Body.readsReordered Language.hasSchema_message).partOf parts decoded reordered (by simp)
        rfl hmessage
    exact ⟨_, ⟨parameters', hparameters', message', hmessage', errors', herrors', rfl⟩,
      indistinct_subscription call messages⟩

end

/-- A definition is read from what the schema of its type has made, in any order. -/
theorem Definition.exists_of_reordered {given : Entries Value} {kind n m : Value} {name : String}
    {s : Schema} {d : Definition} (hkind : given.find? "type" = some kind)
    (hs : (name, s) ∈ Language.mainTypes ++ Language.valueTypes)
    (turned : s.Turns (.object given) n) (decoded : n.Decoded) (reordered : n.Reordered m)
    (hd : ofValue n = .ok d) : ∃ d', ofValue m = .ok d' ∧ Indistinct Definition.same d d' := by
  obtain ⟨fields, es, rfl, rfl, type, parts⟩ :=
    (Language.names_definitions _ hs).turns hkind turned
  obtain ⟨_, ms, rfl, -⟩ := reordered.exists_of_object
  obtain ⟨type', found', types⟩ :=
    reordered.member decoded.distinct (Value.member_eq_ok_iff.mpr type)
  obtain rfl := types.eq_of_str
  rw [Value.member_eq_ok_iff] at found'
  rcases Language.mem_definitionTypes_iff.mp hs with main | field | ⟨rfl, object⟩ | ⟨rfl, -⟩
  · exact exists_of_mainTypes parts decoded reordered main type found' hd
  · rw [ofValue_of_fieldTypes (Entries.mem_keys_of_mem field) type] at hd
    rw [ofValue_of_fieldTypes (Entries.mem_keys_of_mem field) found']
    obtain ⟨f, hf, rfl⟩ := Except.map_eq_ok_iff.mp hd
    obtain ⟨f', hf', same⟩ := Field.exists_of_reordered decoded reordered hf
    exact ⟨.field f', by rw [hf', Except.ok_map], indistinct_field same⟩
  · rw [object] at turned
    simp only [ofValue, Value.member, type, found', Value.entries, Except.ok_bind,
      Except.bind_eq_ok_iff] at hd ⊢
    obtain ⟨body, hbody, hd⟩ := hd
    obtain rfl := Except.ok.inj hd
    obtain ⟨body', hbody', same⟩ := ObjectBody.readsReordered turned decoded reordered hbody
    exact ⟨.object body', ⟨body', hbody', rfl⟩, indistinct_object same⟩
  · simp only [ofValue, Value.member, type, found', Value.entries, Except.ok_bind] at hd ⊢
    obtain rfl := Except.ok.inj hd
    exact ⟨_, rfl, indistinct_token (indistinct_getValue decoded reordered _)⟩

/-! ### Documents -/

namespace Document

theorem isVersion_eq {v w : Value} (h : v.Reordered w) : isVersion v = isVersion w := by
  rw [isVersion, isVersion, h.same_eq, h.kind_eq]

theorem checkPlace_eq {v w : Value} (h : v.Reordered w) (distinct : v.DistinctKeys)
    (id name : String) : checkPlace id name v = checkPlace id name w := by
  cases h with
  | refl => rfl
  | list => rfl
  | object order entries =>
    have type := (Value.Reordered.object order entries).getValue distinct.self "type"
    simp only [checkPlace, type.isKey_eq, type.str?_eq]

theorem Admitted.reordered {es ms : Entries Value} (h : Admitted es)
    (decoded : (Value.object es).Decoded)
    (reordered : (Value.object es).Reordered (.object ms)) : Admitted ms := by
  have part := reordered.getValue decoded.distinct.self
  refine ⟨isVersion_eq (part "lexicon") ▸ h.version, (part "id").str?_eq ▸ h.id, ?_⟩
  intro definitions hdefs
  have defs := (part "defs").symm
  rw [hdefs] at defs
  obtain ⟨_, given, hgiven, -⟩ := defs.exists_of_object
  rw [hgiven] at defs
  obtain ⟨zs, _, ⟨⟩, order, entries⟩ := defs.symm.exists_of_object
  intro e' he'
  obtain ⟨e, he, under⟩ := entries.exists_left he'
  have mem := order.mem_iff.mpr he
  have place := h.places given hgiven e mem
  have each := (hgiven ▸ decoded.getValue "defs").entry e mem
  rw [checkPlace_eq under.value each.distinct, under.key, (part "id").str?_eq] at place
  exact place

/-- A document is read from a reordered value, and cannot be told from the first one. -/
theorem exists_of_reordered {v w : Value} (decoded : v.Decoded) (reordered : v.Reordered w)
    {a : Document} (ha : ofValue v = .ok a) :
    ∃ b, ofValue w = .ok b ∧ Indistinct Document.same a b := by
  cases v with
  | object es =>
    obtain ⟨_, ms, rfl, -⟩ := reordered.exists_of_object
    obtain ⟨checked, made, read⟩ := exists_readFrom_of_ofEntries ha
    obtain ⟨n, hn, outcomes⟩ := Language.plain_document.acceptsReordered decoded.distinct reordered
      [] (Schema.outcome_of_plainVerdict read.verdict)
    obtain ⟨_, checked', rfl, -⟩ := outcomes.exists_of_object
    have decodedChecked := read.checked_decoded decoded
    obtain ⟨_, hdefs', defs⟩ := outcomes.member decodedChecked.distinct read.defs
    obtain ⟨zs, made', rfl, order, entries⟩ := defs.exists_of_object
    obtain ⟨version', hversion', versions⟩ := outcomes.member decodedChecked.distinct read.version
    obtain ⟨given, -, turned⟩ := read.turned
    obtain ⟨cs, definitions', each', order', alike⟩ := Entries.exists_of_perm
      (fun _ x d => Definition.ofValue x = .ok d) (fun _ x d => Definition.ofValue x = .ok d)
      order entries read.each
      fun e he y d hxy hd => by
        obtain ⟨es', kind, name, s, hkind, hs, -, each, -⟩ := exists_turns_of_mem turned he
        exact Definition.exists_of_reordered hkind hs each
          ((read.made_decoded decoded).entry e he) hxy hd
    obtain ⟨names, -⟩ := decoded_of_ofValue decoded ha
    let b : Document :=
      { id := (ms.getValue "id").str?.getD "", definitions := definitions', version := version',
        revision := checked'.getValue "revision", description := checked'.getValue "description",
        source := .object ms }
    have read' : ReadFrom ms checked' made' b :=
      ⟨Schema.plainVerdict_of_outcome hn, hdefs', each', hversion', rfl, rfl, rfl, rfl⟩
    have admitted := (admitted_of_ofEntries ha).reordered decoded reordered
    refine ⟨b, ofEntries_of_readFrom admitted read', indistinct ?_
      (Entries.indistinct_agree names order' alike)
      (versions.indistinct (decodedChecked.member read.version)) ?_ ?_⟩
    · rw [read.id, (reordered.getValue decoded.distinct.self "id").str?_eq]
    · rw [read.revision]
      exact indistinct_getValue decodedChecked outcomes _
    · rw [read.description]
      exact indistinct_getValue decodedChecked outcomes _
  | _ => cases ha

/-- **The order of keys is no part of a document.** Of two decoded values that differ only in the
order of entries, at any depth, both are read as documents or neither is. The two documents are
equal; and a registry that has answered one of them with a bundle, whatever calls it took since it
was empty, answers the other one with this bundle after any further calls, and is left as it was. -/
theorem key_order_immaterial {v w : Value} (decoded : v.Decoded) (reordered : v.Reordered w) :
    ((∃ a, ofValue v = .ok a) ↔ ∃ b, ofValue w = .ok b) ∧
    ∀ a b, ofValue v = .ok a → ofValue w = .ok b → a.same b = true ∧ b.same a = true ∧
      ∀ (s s' : Store) (calls more : List (Surroundings × Registry.Call)) (env env' : Surroundings)
        (bundle : Bundle), s.registry.bundles = [] →
        (Registry.register env a).run (Registry.after calls s) = (.ok bundle, s') →
        (Registry.register env' b).run (Registry.after more s') =
          (.ok bundle, Registry.after more s') := by
  refine ⟨⟨?_, ?_⟩, fun a b ha hb => ?_⟩
  · rintro ⟨a, ha⟩
    obtain ⟨b, hb, -⟩ := exists_of_reordered decoded reordered ha
    exact ⟨b, hb⟩
  · rintro ⟨b, hb⟩
    obtain ⟨a, ha, -⟩ := exists_of_reordered (reordered.decoded decoded) reordered.symm hb
    exact ⟨a, ha⟩
  · obtain ⟨_, hb', there⟩ := exists_of_reordered decoded reordered ha
    obtain rfl := Except.ok.inj (hb.symm.trans hb')
    obtain ⟨_, ha', back⟩ := exists_of_reordered (reordered.decoded decoded) reordered.symm hb
    obtain rfl := Except.ok.inj (ha.symm.trans ha')
    refine ⟨there.same, back.same, ?_⟩
    intro s s' calls more env env' bundle empty registered
    have sound := (Registry.sound_of_empty empty).after calls
    obtain ⟨held, -⟩ := Registry.held_of_register sound registered
    have ids : a.id = b.id := by
      have same := there.same
      simp only [Document.same, Bool.and_eq_true, beq_iff_eq] at same
      exact same.1.1.1.1
    rw [ids] at held
    apply Registry.run_register_of_same (Registry.grows_after more s' b.id bundle held)
    -- what was answered may be the bundle of a third document, to which the first one is equal
    rcases Registry.document_or_same_of_register registered with same | same
    · rw [same]
      exact there.same
    · rw [← there.alike]
      exact same

/-- A cup with a lid, and all of it the other way round. -/
theorem key_order_immaterial_cup :
    let v : Value := .object [("lexicon", .int 1), ("id", .str "com.example.cup"),
      ("defs", .object [
        ("main", .object [("type", .str "object"),
          ("properties", .object [("size", .object [("type", .str "integer"), ("minimum", .int 0)]),
            ("label", .object [("type", .str "string")])]),
          ("required", .list [.str "size"])]),
        ("lid", .object [("type", .str "token")])])]
    let w : Value := .object [
      ("defs", .object [
        ("lid", .object [("type", .str "token")]),
        ("main", .object [("required", .list [.str "size"]),
          ("properties", .object [("label", .object [("type", .str "string")]),
            ("size", .object [("minimum", .int 0), ("type", .str "integer")])]),
          ("type", .str "object")])]),
      ("id", .str "com.example.cup"), ("lexicon", .int 1)]
    let s : Store := ⟨{ id := 0, sources := [], strict := some false }, []⟩
    v.Decoded ∧ v.Reordered w ∧ ∃ a b bundle s', ofValue v = .ok a ∧ ofValue w = .ok b ∧
      a.same b = true ∧ (Registry.register {} a).run s = (.ok bundle, s') ∧
      (Registry.register {} b).run s' = (.ok bundle, s') := by
  intro v w s
  have decoded : v.Decoded := by simp [v, Entries.keys]
  have reordered : v.Reordered w := by
    have size : (Value.object [("type", .str "integer"), ("minimum", .int 0)]).Reordered
        (.object [("minimum", .int 0), ("type", .str "integer")]) :=
      .object (List.reverse_perm _).symm
        (.cons (.intro _ (.refl _)) (.cons (.intro _ (.refl _)) .nil))
    refine .object (List.reverse_perm _).symm (.cons (.intro _ ?_)
      (.cons (.intro _ (.refl _)) (.cons (.intro _ (.refl _)) .nil)))
    refine .object (List.reverse_perm _).symm (.cons (.intro _ (.refl _))
      (.cons (.intro _ ?_) .nil))
    refine .object (List.reverse_perm _).symm (.cons (.intro _ (.refl _))
      (.cons (.intro _ ?_) (.cons (.intro _ (.refl _)) .nil)))
    exact .object (List.reverse_perm _).symm (.cons (.intro _ (.refl _))
      (.cons (.intro _ size) .nil))
  have registers : (ofValue v).toOption.any
      (fun a => ((Registry.register {} a).run s).1.toOption.isSome) = true := by decide +kernel
  obtain ⟨a, ha, answered⟩ := (Option.any_eq_true _ _).mp registers
  have ha := Except.eq_ok_of_toOption_eq_some ha
  obtain ⟨bundle, hbundle⟩ := Option.isSome_iff_exists.mp answered
  have hbundle := Except.eq_ok_of_toOption_eq_some hbundle
  obtain ⟨both, alike⟩ := key_order_immaterial decoded reordered
  obtain ⟨b, hb⟩ := both.mp ⟨a, ha⟩
  obtain ⟨same, -, again⟩ := alike a b ha hb
  have registered : (Registry.register {} a).run s =
      (.ok bundle, ((Registry.register {} a).run s).2) := Prod.ext hbundle rfl
  exact ⟨decoded, reordered, a, b, bundle, _, ha, hb, same, registered,
    again s _ [] [] {} {} bundle rfl registered⟩

end Document

end Lexicon
