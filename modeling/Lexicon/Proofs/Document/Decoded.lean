import Lexicon.Proofs.Document.Declared
import Lexicon.Proofs.Json.Decoded

/-!
# Documents read from decoded values

The schema of documents declares no key of an object twice, so that what it makes of a decoded value
is decoded again, and what is read from that has options and properties under different keys. Main
statement: in a document that was read from a decoded value the definitions, the properties and the
options stand under keys of their own, and the options are decoded.
-/

namespace Lexicon

/-! ### What a schema makes of a decoded value -/

namespace Schema

mutual

/-- No object in a schema declares a key twice. -/
def declaresOnce : Schema → Bool
  | .array items _ => items.declaresOnce
  | .map values none => values.declaresOnce
  | .map values (some keys) => values.declaresOnce && keys.declaresOnce
  | .object fields none _ => decide (Entries.keys fields).Nodup && allDeclareOnce fields
  | .object fields (some extra) _ =>
    decide (Entries.keys fields).Nodup && allDeclareOnce fields && extra.declaresOnce
  | .required inner | .nullable inner | .withDefault inner _ => inner.declaresOnce
  | .anyOf alternatives _ => eachDeclaresOnce alternatives
  | .tagged _ variants none => allDeclareOnce variants
  | .tagged _ variants (some fallback) => allDeclareOnce variants && fallback.declaresOnce
  | _ => true

/-- No object in the schemas of some fields declares a key twice. -/
def allDeclareOnce : List (String × Schema) → Bool
  | [] => true
  | (_, s) :: rest => s.declaresOnce && allDeclareOnce rest

/-- No object in some schemas declares a key twice. -/
def eachDeclaresOnce : List Schema → Bool
  | [] => true
  | s :: rest => s.declaresOnce && eachDeclaresOnce rest

end

theorem declaresOnce_of_mem {fields : List (String × Schema)} (h : allDeclareOnce fields = true)
    {e : String × Schema} (he : e ∈ fields) : e.2.declaresOnce = true := by
  induction fields with
  | nil => cases he
  | cons first rest ih =>
    rw [allDeclareOnce, Bool.and_eq_true] at h
    rcases List.mem_cons.mp he with rfl | he
    · exact h.1
    · exact ih h.2 he

theorem declaresOnce_object {fields : List (String × Schema)} {extra : Option Schema}
    {closed : Bool} (h : (Schema.object fields extra closed).declaresOnce = true) :
    (Entries.keys fields).Nodup ∧ (∀ e ∈ fields, e.2.declaresOnce = true) ∧
      ∀ s, extra = some s → s.declaresOnce = true := by
  cases extra with
  | none =>
    rw [declaresOnce, Bool.and_eq_true, decide_eq_true_eq] at h
    exact ⟨h.1, fun _ => declaresOnce_of_mem h.2, nofun⟩
  | some s =>
    rw [declaresOnce, Bool.and_eq_true, Bool.and_eq_true, decide_eq_true_eq] at h
    refine ⟨h.1.1, fun _ => declaresOnce_of_mem h.1.2, ?_⟩
    rintro _ ⟨⟩
    exact h.2

theorem declaresOnce_tagged {tag : String} {variants : List (String × Schema)}
    {fallback : Option Schema} (h : (Schema.tagged tag variants fallback).declaresOnce = true) :
    (∀ e ∈ variants, e.2.declaresOnce = true) ∧
      ∀ s, fallback = some s → s.declaresOnce = true := by
  cases fallback with
  | none => exact ⟨fun _ => declaresOnce_of_mem h, nofun⟩
  | some s =>
    rw [declaresOnce, Bool.and_eq_true] at h
    refine ⟨fun _ => declaresOnce_of_mem h.1, ?_⟩
    rintro _ ⟨⟩
    exact h.2

variable {follow : Reference → Value → Path → Check Unit Value} {s : Schema} {v n : Value}
  {path : Path}

/-- The keys of a checked object are different if the declared keys are and the given keys were. -/
theorem nodup_keys_of_parts {fields : List (String × Schema)} {es others : Entries Value}
    {parts : List (Option (String × Value))} (distinct : (Entries.keys fields).Nodup)
    (given : es.keys.Nodup)
    (hparts : List.Forall₂ (fun e p => part follow es path e.1 e.2 = .ok p) fields parts)
    (hothers : Entries.keys others = (undeclared fields es).keys) :
    (Entries.keys (parts.filterMap id ++ others)).Nodup := by
  have declared : (Entries.keys (parts.filterMap id)).Sublist (Entries.keys fields) :=
    Entries.keys_collected hparts fun e p => key_of_part follow
  have rest : (Entries.keys (undeclared fields es)).Sublist es.keys := List.filter_sublist.map _
  rw [Entries.keys, List.map_append]
  apply (distinct.sublist declared).append
  · change (Entries.keys others).Nodup
    rw [hothers]
    exact given.sublist rest
  · intro key hkey hother
    change key ∈ Entries.keys others at hother
    rw [hothers, ← Entries.has_eq_true_iff, Entries.has, find?_undeclared,
      if_pos (declared.subset hkey)] at hother
    cases hother

/-- What an object whose fields have different keys and no defaults makes of a decoded object is
decoded, if what its parts make of decoded values is. -/
theorem decoded_of_object {fields : List (String × Schema)} {extra : Option Schema}
    {es : Entries Value} (distinct : (Entries.keys fields).Nodup)
    (plain : ∀ e ∈ fields, e.2.default? = none)
    (ih : ∀ e ∈ fields, ∀ ⦃x y : Value⦄ ⦃path : Path⦄, x.Decoded →
      (e.2.checkWith follow x path).outcome = .ok y → y.Decoded)
    (ihOthers : ∀ s, extra = some s → ∀ ⦃x y : Value⦄ ⦃path : Path⦄, x.Decoded →
      (s.checkWith follow x path).outcome = .ok y → y.Decoded)
    (hv : (Value.object es).Decoded)
    (hn : ((Schema.object fields extra false).checkWith follow (.object es) path).outcome = .ok n) :
    n.Decoded := by
  obtain ⟨_, parts, others, ⟨⟩, hparts, hothers, rfl⟩ := outcome_object_eq_ok_iff.mp hn
  have keys : Entries.keys others = (undeclared fields es).keys :=
    Entries.keys_eq_of_forall₂ (hothers.imp fun _ _ h => h.1)
  apply Value.Decoded.object
  · exact nodup_keys_of_parts distinct hv.distinct.self hparts keys
  · intro m hm
    rcases List.mem_append.mp hm with hm | hm
    · obtain ⟨p, hp, rfl⟩ := List.mem_filterMap.mp hm
      obtain ⟨e, he, hpart⟩ := hparts.exists_left hp
      obtain ⟨x, hx, hy⟩ := exists_found_of_part (plain e he) hpart
      exact ih e he (hv.entry _ (Entries.mem_of_find?_eq_some hx)) hy
    · obtain ⟨e, he, -, hy⟩ := hothers.exists_left hm
      have given := hv.entry e (List.mem_filter.mp he).1
      cases extra with
      | none => exact Except.ok.inj hy ▸ given
      | some s => exact ihOthers s rfl given hy

/-- What a plain schema that declares no key twice makes of a decoded value is decoded. The
induction is on the schema. -/
theorem Plain.decoded (h : s.Plain) (once : s.declaresOnce = true) (hv : v.Decoded)
    (hn : (s.checkWith follow v path).outcome = .ok n) : n.Decoded := by
  induction h generalizing v n path with
  | boolean => exact (Scalar.boolean.accepted hn).1 ▸ hv
  | integer => exact ((Scalar.integer _).accepted hn).1 ▸ hv
  | string => exact ((Scalar.string _).accepted hn).1 ▸ hv
  | literal => exact ((Scalar.literal _).accepted hn).1 ▸ hv
  | enum => exact ((Scalar.enum _).accepted hn).1 ▸ hv
  | array _ _ ih =>
    obtain ⟨xs, ys, rfl | rfl, rfl, hys⟩ := forall₂_of_array hn
    · apply Value.Decoded.list
      intro y hy
      obtain ⟨x, hx, _, made⟩ := hys.exists_left hy
      exact ih once (hv.item x hx) made
    · cases hv.json
  | map _ ih =>
    obtain ⟨es, ms, rfl, rfl, hms⟩ := forall₂_of_map hn
    apply Value.Decoded.object
    · rw [Entries.keys_eq_of_forall₂ (hms.imp fun _ _ made => made.1)]
      exact hv.distinct.self
    · intro m hm
      obtain ⟨e, he, -, _, made⟩ := hms.exists_left hm
      exact ih once (hv.entry e he) made
  | object plain _ ih ihOthers =>
    obtain ⟨distinct, onceFields, onceOthers⟩ := declaresOnce_object once
    cases v with
    | object es =>
      apply decoded_of_object distinct (fun e he => (plain e he).default?_eq_none) _ _ hv hn
      · intro e he x y path hx hy
        exact ih e he (onceFields e he) hx hy
      · intro s hs x y path hx hy
        exact ihOthers s hs (onceOthers s hs) hx hy
    | _ => cases hn
  | required _ ih => exact ih once hv hn
  | tagged _ _ ih ihOthers =>
    obtain ⟨onceVariants, onceFallback⟩ := declaresOnce_tagged once
    rcases checkWith_tagged follow _ _ _ v path with
      ⟨_, _, failed⟩ | ⟨_, _, s, -, -, chosen, same⟩
    · rw [failed] at hn
      cases hn
    · rw [same] at hn
      cases chosen with
      | variant _ hs =>
        have mem := Entries.mem_of_find?_eq_some hs
        exact ih _ mem (onceVariants _ mem) hv hn
      | fallback _ hs => exact ihOthers _ hs (onceFallback _ hs) hv hn

end Schema

/-! ### Fields -/

theorem Value.Decoded.member {v x : Value} {key : String} (h : v.Decoded)
    (hx : v.member key = .ok x) : x.Decoded := by
  cases v with
  | object es => exact h.entry _ (Entries.mem_of_find?_eq_some (Value.member_eq_ok_iff.mp hx))
  | _ => cases hx

theorem Value.Decoded.getValue {es : Entries Value} (h : (Value.object es).Decoded)
    (key : String) : (es.getValue key).Decoded := by
  rw [Entries.getValue]
  cases hx : Entries.find? es key with
  | none => exact .null
  | some x => exact h.entry _ (Entries.mem_of_find?_eq_some hx)

/-- A field whose options, and those of its items, are decoded. -/
inductive Field.Decoded : Field → Prop
  | intro {f : Field} (options : (Value.object f.options).Decoded)
      (items : ∀ item, f.items = some item → Decoded item) : Decoded f

theorem Field.Decoded.options {f : Field} (h : f.Decoded) : (Value.object f.options).Decoded := by
  cases h
  assumption

theorem Field.Decoded.items {f item : Field} (h : f.Decoded) (hitem : f.items = some item) :
    item.Decoded := by
  cases h with
  | intro _ items => exact items item hitem

theorem Field.Decoded.option {f : Field} (h : f.Decoded) {key : String} {x : Value}
    (hx : f.options.find? key = some x) : x.Decoded :=
  h.options.entry _ (Entries.mem_of_find?_eq_some hx)

/-- A field that is read from a decoded value is decoded. The induction is on the depth of the
value. -/
theorem Field.decoded_of_ofValue {v : Value} (hv : v.Decoded) {f : Field} (hf : ofValue v = .ok f) :
    f.Decoded := by
  induction v using Value.depth_induction generalizing f with
  | step v ih =>
  cases v with
  | object es =>
    rw [ofValue] at hf
    obtain ⟨type, _, hf⟩ := Except.bind_eq_ok_iff.mp hf
    obtain ⟨items, hitems, hf⟩ := Except.bind_eq_ok_iff.mp hf
    obtain rfl := Except.ok.inj hf
    refine .intro (.object ?_ ?_) ?_
    · exact hv.distinct.self.sublist (List.filter_sublist.map _)
    · intro e he
      exact hv.entry e (List.mem_filter.mp he).1
    · rintro item rfl
      rw [itemsOf_eq] at hitems
      cases hx : Entries.find? es "items" with
      | none =>
        rw [hx] at hitems
        cases hitems
      | some x =>
        rw [hx] at hitems
        dsimp only at hitems
        split_ifs at hitems
        · cases hitems
        · obtain ⟨item', hitem, same⟩ := Except.map_eq_ok_iff.mp hitems
          obtain rfl := Option.some.inj same
          have mem := Entries.mem_of_find?_eq_some hx
          exact ih x (Value.depth_lt_of_mem_entries mem) (hv.entry _ mem) hitem
  | _ => cases hf

/-! ### Objects and definitions -/

/-- The properties of an object are decoded fields under different names. -/
structure ObjectBody.Decoded (body : ObjectBody) : Prop where
  names : body.properties.keys.Nodup
  properties : ∀ e ∈ body.properties, e.2.Decoded

/-- The fields of a component are decoded. -/
def Definition.Component.Decoded : Component → Prop
  | .object body _ _ => body.Decoded
  | .field f => f.Decoded
  | .call _ | .token => True

theorem decoded_of_propertiesOf {es : Entries Value} (h : (Value.object es).Decoded)
    {ps : Entries Field} (hps : propertiesOf es = .ok ps) :
    ps.keys.Nodup ∧ ∀ e ∈ ps, e.2.Decoded := by
  have given : ((Entries.find? es "properties").getD (.object [])).Decoded := by
    cases hx : Entries.find? es "properties" with
    | none => exact .object List.nodup_nil nofun
    | some x => exact h.entry _ (Entries.mem_of_find?_eq_some hx)
  obtain ⟨properties, hproperties, read⟩ := propertiesOf_eq_ok_iff.mp hps
  rw [hproperties] at given
  constructor
  · rw [Entries.keys_eq_of_forall₂ (read.imp fun _ _ same => same.1)]
    exact given.distinct.self
  · intro p hp
    obtain ⟨e, he, -, hf⟩ := read.exists_left hp
    exact Field.decoded_of_ofValue (given.entry e he) hf

theorem ObjectBody.decoded_of_ofValue {v : Value} (hv : v.Decoded) {body : ObjectBody}
    (h : ofValue v = .ok body) : body.Decoded := by
  obtain ⟨es, hes, made⟩ := Except.bind_eq_ok_iff.mp h
  rw [Value.entries_eq_ok_iff.mp hes] at hv
  simp only [Except.bind_eq_ok_iff] at made
  obtain ⟨properties, hproperties, _, _, _, _, made⟩ := made
  obtain rfl := Except.ok.inj made
  obtain ⟨names, fields⟩ := decoded_of_propertiesOf hv hproperties
  exact ⟨names, fields⟩

theorem Parameters.decoded_of_ofValue {v : Value} (hv : v.Decoded) {p : Parameters}
    (h : ofValue v = .ok p) : p.properties.keys.Nodup ∧ ∀ e ∈ p.properties, e.2.Decoded := by
  obtain ⟨es, hes, made⟩ := Except.bind_eq_ok_iff.mp h
  rw [Value.entries_eq_ok_iff.mp hes] at hv
  simp only [Except.bind_eq_ok_iff] at made
  obtain ⟨properties, hproperties, _, _, made⟩ := made
  obtain rfl := Except.ok.inj made
  exact decoded_of_propertiesOf hv hproperties

theorem BodySchema.decoded_of_ofValue {v : Value} (hv : v.Decoded) {b : BodySchema}
    (h : ofValue v = .ok b) : (Definition.Component.ofPart b).Decoded := by
  obtain ⟨type, _, h⟩ := Except.bind_eq_ok_iff.mp h
  split_ifs at h
  · obtain ⟨body, hbody, h⟩ := Except.bind_eq_ok_iff.mp h
    obtain rfl := Except.ok.inj h
    exact ObjectBody.decoded_of_ofValue hv hbody
  · obtain ⟨f, hf, h⟩ := Except.bind_eq_ok_iff.mp h
    obtain rfl := Except.ok.inj h
    exact Field.decoded_of_ofValue hv hf

theorem Body.decoded_of_ofValue {v : Value} (hv : v.Decoded) {b : Body} (h : ofValue v = .ok b)
    {schema : BodySchema} (hschema : b.schema = some schema) :
    (Definition.Component.ofPart schema).Decoded := by
  obtain ⟨es, hes, made⟩ := Except.bind_eq_ok_iff.mp h
  rw [Value.entries_eq_ok_iff.mp hes] at hv
  obtain ⟨schema?, read, made⟩ := Except.bind_eq_ok_iff.mp made
  obtain rfl := Except.ok.inj made
  obtain rfl : schema? = some schema := hschema
  obtain ⟨y, hy, read⟩ := exists_of_partOf read
  exact BodySchema.decoded_of_ofValue (hv.entry _ (Entries.mem_of_find?_eq_some hy)) read

namespace Definition

/-- The parts of a call are decoded if the parameters and the bodies are read from a decoded
object. -/
theorem decoded_of_call {d : Definition} {call : Call} (hcall : d.call? = some call)
    {es : Entries Value} (h : (Value.object es).Decoded)
    (parameters : partOf Parameters.ofValue es "parameters" = .ok call.parameters)
    (bodies : ∀ b ∈ d.bodies, partOf Body.ofValue es b.1 = .ok b.2) (nsid key : String) :
    ∀ e ∈ d.components nsid key, e.2.Decoded := by
  refine forall_components_of_call hcall (fun _ => trivial) ?_ nsid key
  apply forall_parts (P := fun b => (Component.ofPart b).Decoded)
  · intro p hp
    rw [hp] at parameters
    obtain ⟨y, hy, read⟩ := exists_of_partOf parameters
    obtain ⟨names, fields⟩ :=
      Parameters.decoded_of_ofValue (h.entry _ (Entries.mem_of_find?_eq_some hy)) read
    exact ⟨names, fields⟩
  · intro b hb body hbody schema hschema
    have read := bodies b hb
    rw [hbody] at read
    obtain ⟨y, hy, read⟩ := exists_of_partOf read
    exact Body.decoded_of_ofValue (h.entry _ (Entries.mem_of_find?_eq_some hy)) read hschema

/-- The components of a definition that is read from a decoded value are decoded. -/
theorem decoded_of_ofValue {v : Value} (hv : v.Decoded) {d : Definition} (h : ofValue v = .ok d)
    (nsid key : String) : ∀ e ∈ d.components nsid key, e.2.Decoded := by
  have single {component : Component} (decoded : component.Decoded) :
      ∀ e ∈ [(key, component)], e.2.Decoded := by
    intro e he
    rw [List.mem_singleton.mp he]
    exact decoded
  obtain ⟨type, _, h⟩ := Except.bind_eq_ok_iff.mp h
  obtain ⟨es, hes, h⟩ := Except.bind_eq_ok_iff.mp h
  have object := Value.entries_eq_ok_iff.mp hes ▸ hv
  split at h
  all_goals simp only [Except.bind_eq_ok_iff] at h
  · obtain ⟨record, hrecord, body, hbody, h⟩ := h
    obtain rfl := Except.ok.inj h
    exact single (ObjectBody.decoded_of_ofValue (hv.member hrecord) hbody)
  · obtain ⟨body, hbody, h⟩ := h
    obtain rfl := Except.ok.inj h
    exact single (ObjectBody.decoded_of_ofValue hv hbody)
  · obtain ⟨parameters, hparameters, output, houtput, errors, _, h⟩ := h
    obtain rfl := Except.ok.inj h
    apply decoded_of_call rfl object hparameters
    exact List.forall_mem_singleton.mpr houtput
  · obtain ⟨parameters, hparameters, input, hinput, output, houtput, errors, _, h⟩ := h
    obtain rfl := Except.ok.inj h
    apply decoded_of_call rfl object hparameters
    exact List.forall_mem_cons.mpr ⟨hinput, List.forall_mem_singleton.mpr houtput⟩
  · obtain ⟨parameters, hparameters, message, hmessage, errors, _, h⟩ := h
    obtain rfl := Except.ok.inj h
    apply decoded_of_call rfl object hparameters
    exact List.forall_mem_singleton.mpr hmessage
  · obtain rfl := Except.ok.inj h
    exact single trivial
  · obtain ⟨f, hf, h⟩ := h
    obtain rfl := Except.ok.inj h
    exact single (Field.decoded_of_ofValue hv hf)

end Definition

namespace Document

theorem ReadFrom.checked_decoded {es checked made : Entries Value} {d : Document}
    (h : ReadFrom es checked made d) (hv : (Value.object es).Decoded) :
    (Value.object checked).Decoded := by
  have once : Language.document.declaresOnce = true := by decide +kernel
  exact Language.plain_document.decoded once hv (Schema.outcome_of_plainVerdict h.verdict)

theorem ReadFrom.made_decoded {es checked made : Entries Value} {d : Document}
    (h : ReadFrom es checked made d) (hv : (Value.object es).Decoded) :
    (Value.object made).Decoded :=
  (h.checked_decoded hv).member h.defs

/-- **Documents of decoded values.** In a document that is read from a decoded value the definitions
have different names, and their components are decoded. -/
theorem decoded_of_ofValue {v : Value} (hv : v.Decoded) {d : Document} (h : ofValue v = .ok d) :
    d.definitions.keys.Nodup ∧ ∀ e ∈ d.components, e.2.Decoded := by
  cases v with
  | object es =>
    obtain ⟨checked, made, read⟩ := exists_readFrom_of_ofEntries h
    have decoded := read.made_decoded hv
    constructor
    · rw [Entries.keys_eq_of_forall₂ (read.each.imp fun _ _ same => same.1)]
      exact decoded.distinct.self
    · intro e he
      obtain ⟨p, hp, he⟩ := List.mem_flatMap.mp he
      obtain ⟨given, hgiven, -, hdefinition⟩ := read.each.exists_left hp
      exact Definition.decoded_of_ofValue (decoded.entry given hgiven) hdefinition d.id p.1 e he
  | _ => cases h

end Document

end Lexicon
