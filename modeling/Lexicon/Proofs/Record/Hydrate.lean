import Lexicon.Proofs.Record.Slots
import Lexicon.Proofs.Registry.Sound
import Lexicon.Record.Hydrate

/-!
# Making records of checked values

A registry makes of a checked value what a function of its answers makes of it: nothing but the
bundles that are found enters into the records. Main statement: hydrating a value in a sound
registry gives a result exactly if this function does, and the same one.
-/

namespace Lexicon

/-- A checked value with records in place of objects, as its type asks for it and as the bundles
that are found have classes for it. -/
def Value.hydrated (bundles : String → Except Fault Bundle) (v : Value) (type : FieldType) :
    Except Fault Value :=
  match v with
  | .list items =>
    match type.core with
    | .array itemType => .list <$> items.mapM fun x => x.hydrated bundles itemType
    | _ => .ok (.list items)
  | .object entries =>
    match type.core.target? entries with
    | none => .ok (.object entries)
    | some target => do
      let bundle ← bundles target.nsid
      let definition ← bundle.definition target.fragment
      match bundle.binding? target.fragment with
      | none => .ok (.object entries)
      | some binding =>
        let id := bundle.classId target.fragment binding
        .record (binding.recordType.classOf id) <$> binding.recordType.attributesOf fun slot =>
          match _h : Entries.find? entries slot.key with
          | none => .ok none
          | some x =>
            match definition.type.property? slot.key with
            | some p => some <$> x.hydrated bundles p.type
            | none => .ok (some x)
  | v => .ok v
termination_by v.depth
decreasing_by
  · exact Nat.lt_succ_of_le (Value.depth_le_depthOfItems ‹_›)
  · exact Nat.lt_succ_of_le (Value.depth_le_depthOfEntries (Entries.mem_of_find?_eq_some ‹_›))

namespace RecordType

section Record

variable (bundles : String → Except Fault Bundle) (type : DefinitionType) (es : Entries Value)

/-- What checked entries give for a slot: the part under its key, as the property asks for it. -/
def given (slot : Slot) : Except Fault (Option Value) :=
  match es.find? slot.key with
  | none => .ok none
  | some x =>
    match type.property? slot.key with
    | some p => some <$> x.hydrated bundles p.type
    | none => .ok (some x)

/-- The record that checked entries make. -/
def recordOf (t : RecordType) (id : ClassId) : Except Fault Value :=
  .record (t.classOf id) <$> t.attributesOf (given bundles type es)

end Record

end RecordType

namespace Value

variable (bundles : String → Except Fault Bundle)

theorem hydrated_list (items : List Value) (type : FieldType) :
    (Value.list items).hydrated bundles type =
      match type.core with
      | .array itemType => .list <$> items.mapM fun x => x.hydrated bundles itemType
      | _ => .ok (.list items) := by
  rw [hydrated]

theorem hydrated_object (es : Entries Value) (type : FieldType) :
    (Value.object es).hydrated bundles type =
      match type.core.target? es with
      | none => .ok (.object es)
      | some target => (do
        let bundle ← bundles target.nsid
        let definition ← bundle.definition target.fragment
        match bundle.binding? target.fragment with
        | none => .ok (.object es)
        | some binding =>
          binding.recordType.recordOf bundles definition.type es
            (bundle.classId target.fragment binding)) := by
  rw [hydrated]
  cases type.core.target? es with
  | none => rfl
  | some target =>
    refine bind_congr fun bundle => bind_congr fun definition => ?_
    cases bundle.binding? target.fragment with
    | none => rfl
    | some binding =>
      refine congrArg (fun f => record _ <$> binding.recordType.attributesOf f) ?_
      funext slot
      unfold RecordType.given
      split
      · next absent => rw [absent]
      · next x present => rw [present]

/-- What is neither a list nor an object stays as it is. -/
theorem hydrated_of_plain {v : Value} (hlist : ∀ items, v ≠ .list items)
    (hobject : ∀ es, v ≠ .object es) (type : FieldType) : v.hydrated bundles type = .ok v := by
  rw [hydrated]
  · exact hlist
  · exact hobject

theorem hydrated_nullable (v : Value) (type : FieldType) :
    v.hydrated bundles (.nullable type) = v.hydrated bundles type := by
  cases v with
  | list items => rw [hydrated_list, hydrated_list, FieldType.core]
  | object es => rw [hydrated_object, hydrated_object, FieldType.core]
  | _ =>
    rw [hydrated_of_plain bundles (by simp) (by simp)]
    exact (hydrated_of_plain bundles (by simp) (by simp) type).symm

/-- Only null is hydrated to null. -/
theorem eq_null_of_hydrated {v : Value} {type : FieldType}
    (h : v.hydrated bundles type = .ok .null) : v = .null := by
  cases v with
  | list items =>
    rw [hydrated_list] at h
    split at h
    · simp [Except.map_eq_ok_iff] at h
    · simp at h
  | object es =>
    rw [hydrated_object] at h
    split at h
    · simp at h
    · obtain ⟨bundle, _, h⟩ := Except.bind_eq_ok_iff.mp h
      obtain ⟨definition, _, h⟩ := Except.bind_eq_ok_iff.mp h
      split at h
      · simp at h
      · simp [RecordType.recordOf, Except.map_eq_ok_iff] at h
  | null => rfl
  | _ =>
    rw [hydrated_of_plain bundles (by simp) (by simp)] at h
    simp at h

end Value

namespace RecordType

variable {bundles : String → Except Fault Bundle} {t : RecordType}

/-- What a slot holds for the part under its key: what the type of the property makes of the part,
the part itself if there is no such property, or the default if there is no part. -/
inductive Holds (bundles : String → Except Fault Bundle) (t : RecordType) (slot : Slot) :
    Option FieldType → Option Value → Value → Prop
  | made {type : FieldType} {part v : Value} (h : part.hydrated bundles type = .ok v) :
      Holds bundles t slot (some type) (some part) v
  | kept (part : Value) : Holds bundles t slot none (some part) part
  | default {type : Option FieldType} (optional : t.enforced.contains slot.key = false) :
      Holds bundles t slot type none slot.default

/-- What checked entries give for a slot settles what it holds. -/
theorem holds_iff {type : DefinitionType} {es : Entries Value} {slot : Slot} {v : Value} :
    (∃ g, given bundles type es slot = .ok g ∧ t.settle slot g = .ok v) ↔
      Holds bundles t slot ((type.property? slot.key).map (·.type)) (es.find? slot.key) v := by
  unfold given
  generalize es.find? slot.key = part
  generalize type.property? slot.key = property
  cases part with
  | none =>
    generalize property.map (·.type) = expected
    constructor
    · rintro ⟨g, hg, hv⟩
      obtain rfl := Except.ok.inj hg
      unfold settle at hv
      split_ifs at hv with enforced
      obtain rfl := Except.ok.inj hv
      exact .default (Bool.eq_false_iff.mpr enforced)
    · intro h
      cases h with
      | default optional => exact ⟨none, rfl, if_neg (Bool.eq_false_iff.mp optional)⟩
  | some part =>
    cases property with
    | none =>
      rw [Option.map_none]
      constructor
      · rintro ⟨g, hg, hv⟩
        obtain rfl := Except.ok.inj hg
        obtain rfl := Except.ok.inj hv
        exact .kept part
      · intro h
        cases h with
        | kept => exact ⟨some _, rfl, rfl⟩
    | some p =>
      rw [Option.map_some]
      constructor
      · rintro ⟨g, hg, hv⟩
        obtain ⟨w, hw, rfl⟩ := Except.map_eq_ok_iff.mp hg
        obtain rfl := Except.ok.inj hv
        exact .made hw
      · intro h
        cases h with
        | made hw => exact ⟨some v, Except.map_eq_ok_iff.mpr ⟨v, hw, rfl⟩, rfl⟩

/-- The attributes of the record that checked entries make, slot by slot. -/
theorem attributesOf_given_eq_ok_iff {type : DefinitionType} {es made : Entries Value} :
    t.attributesOf (given bundles type es) = .ok made ↔ List.Forall₂ (fun slot a =>
      ∃ v, Holds bundles t slot ((type.property? slot.key).map (·.type)) (es.find? slot.key) v ∧
        a = (slot.attr, v)) t.slots made := by
  rw [attributesOf_eq_ok_iff]
  refine iff_of_eq (congrArg (List.Forall₂ · _ _) ?_)
  funext slot a
  simp only [← holds_iff, eq_iff_iff]
  constructor
  · rintro ⟨g, v, hg, hv, rfl⟩
    exact ⟨v, ⟨g, hg, hv⟩, rfl⟩
  · rintro ⟨v, ⟨g, hg, hv⟩, rfl⟩
    exact ⟨g, v, hg, hv, rfl⟩

/-- Each attribute of the record that checked entries make holds what its slot does. -/
theorem holds_of_attributesOf (attributes : (t.slots.map (·.attr)).Nodup) {type : DefinitionType}
    {es made : Entries Value} (h : t.attributesOf (given bundles type es) = .ok made) {slot : Slot}
    (hslot : slot ∈ t.slots) :
    ∃ v, Holds bundles t slot ((type.property? slot.key).map (·.type)) (es.find? slot.key) v ∧
      made.find? slot.attr = some v := by
  have keys := keys_of_attributesOf h
  rw [attributesOf_given_eq_ok_iff] at h
  obtain ⟨a, ha, v, holds, rfl⟩ := h.exists_right hslot
  exact ⟨v, holds, (Entries.find?_eq_some_iff (keys ▸ attributes)).mpr ha⟩

end RecordType

/-! ### What the program does -/

/-- An action gives in every registry with the given answers the results that are computed from
these alone, and leaves the answers as they are. -/
def Action.Gives {α : Type} (env : Surroundings) (bundles : String → Except Fault Bundle)
    (x : Action α) (y : Except Fault α) : Prop :=
  ∀ s : Store, s.registry.found env = bundles →
    (x.run s).2.registry.found env = bundles ∧ ∀ a, (x.run s).1 = .ok a ↔ y = .ok a

namespace Action.Gives

variable {α β : Type} {env : Surroundings} {bundles : String → Except Fault Bundle}

theorem lift (result : Except Fault α) : Gives env bundles (Action.lift result) result :=
  fun _ hs => ⟨hs, fun _ => Iff.rfl⟩

theorem pure (a : α) : Gives env bundles (Pure.pure a) (.ok a) :=
  fun _ hs => ⟨hs, fun _ => Iff.rfl⟩

theorem bind {x : Action α} {y : Except Fault α} {f : α → Action β} {g : α → Except Fault β}
    (hxy : Gives env bundles x y) (hfg : ∀ a, y = .ok a → Gives env bundles (f a) (g a)) :
    Gives env bundles (x >>= f) (y >>= g) := by
  intro s hs
  obtain ⟨answers, outcome⟩ := hxy s hs
  rw [Check.run_bind]
  generalize x.run s = result at answers outcome ⊢
  obtain ⟨a | a, s'⟩ := result
  · refine ⟨answers, fun b => ⟨fun h => by simp at h, fun h => ?_⟩⟩
    obtain ⟨c, hc, _⟩ := Except.bind_eq_ok_iff.mp h
    simpa using (outcome c).mpr hc
  · have hy := (outcome a).mp rfl
    rw [hy]
    exact hfg a hy s' answers

theorem bind_lift {result : Except Fault α} {a : α} (ha : result = .ok a) {f : α → Action β}
    {y : Except Fault β} (h : Gives env bundles (f a) y) :
    Gives env bundles (Action.lift result >>= f) y := by
  subst ha
  exact h

theorem map {x : Action α} {y : Except Fault α} (hxy : Gives env bundles x y) (f : α → β) :
    Gives env bundles (do return f (← x)) (f <$> y) := by
  have := hxy.bind fun a _ => pure (f a)
  rwa [show (y >>= fun a => Except.ok (f a)) = f <$> y by cases y <;> rfl] at this

theorem mapM {f : α → Action β} {g : α → Except Fault β} {xs : List α}
    (h : ∀ x ∈ xs, Gives env bundles (f x) (g x)) :
    Gives env bundles (xs.mapM f) (xs.mapM g) := by
  induction xs with
  | nil => exact pure []
  | cons x xs ih =>
    rw [List.mapM_cons, List.mapM_cons]
    rw [List.forall_mem_cons] at h
    exact h.1.bind fun y _ => (ih h.2).bind fun ys _ => pure _

theorem of_iff {x : Action α} {y z : Except Fault α} (h : Gives env bundles x y)
    (same : ∀ a, y = .ok a ↔ z = .ok a) : Gives env bundles x z :=
  fun s hs => ⟨(h s hs).1, fun a => ((h s hs).2 a).trans (same a)⟩

theorem bundle (nsid : String) : Gives env bundles (Registry.bundle env nsid) (bundles nsid) := by
  intro s hs
  obtain ⟨outcome, registry⟩ := Registry.run_bundle env nsid s
  rw [outcome, registry, Registry.found_asked, hs]
  exact ⟨rfl, fun _ => Iff.rfl⟩

end Action.Gives

/-! ### The classes of a bundle -/

theorem Definition.Component.Compiles.builtFrom {nsid key : String} {strict : Bool}
    {component : Definition.Component} {c : CompiledDefinition}
    (h : component.Compiles nsid key strict c) {t : RecordType} (ht : c.recordType = some t) :
    ∃ rules typeName, t.BuiltFrom nsid key rules typeName := by
  cases h with
  | object h =>
    obtain rfl := Option.some.inj (ht.symm.trans h.recordType_eq)
    exact ⟨_, _, RecordType.builtFrom_of_build h.build⟩
  | call build =>
    obtain rfl := Option.some.inj ht
    exact ⟨_, _, RecordType.builtFrom_of_build build⟩
  | _ => simp at ht

theorem RecordType.BuiltFrom.rename {nsid key : String} {rules : List SlotRule}
    {typeName : Option String} {t : RecordType} (h : t.BuiltFrom nsid key rules typeName)
    (name : String) : RecordType.BuiltFrom nsid key rules typeName { t with name } :=
  ⟨h.nsid_eq, h.key_eq, h.slots_eq, h.enforced_eq, h.omitted_eq, h.attributes⟩

/-- The class under a key of a faithful bundle has the record type of the compiled definition, up to
its name. -/
theorem Bundle.Faithful.binding {nsid key : String} {b : Bundle} (h : b.Faithful nsid)
    {binding : Binding} (hbinding : b.binding? key = some binding) :
    ∃ c t, b.definitions.find? key = some c ∧ c.recordType = some t ∧
      binding.recordType = { t with name := binding.recordType.name } := by
  unfold Bundle.binding? at hbinding
  split at hbinding
  · next hbound =>
    obtain rfl := Option.some.inj hbinding
    exact h.bound key _ hbound
  · obtain ⟨c, hc, hbinding⟩ := Option.bind_eq_some_iff.mp hbinding
    obtain ⟨t, ht, rfl⟩ := Option.map_eq_some_iff.mp hbinding
    exact ⟨c, t, hc, ht, rfl⟩

/-- The class under a key of a faithful bundle looks up the definition of this name. -/
theorem Bundle.Faithful.reference_eq {nsid key : String} {b : Bundle} (h : b.Faithful nsid)
    {binding : Binding} (hbinding : b.binding? key = some binding) :
    (⟨binding.recordType.nsid, binding.recordType.key⟩ : Reference) = ⟨nsid, key⟩ := by
  obtain ⟨c, t, hc, ht, renamed⟩ := h.binding hbinding
  obtain ⟨strict, component, _, compiles⟩ := h.component hc
  obtain ⟨rules, typeName, built⟩ := compiles.builtFrom ht
  rw [renamed, ← built.nsid_eq, ← built.key_eq]

theorem Bundle.Faithful.attributes {nsid key : String} {b : Bundle} (h : b.Faithful nsid)
    {binding : Binding} (hbinding : b.binding? key = some binding) :
    (binding.recordType.slots.map (·.attr)).Nodup := by
  obtain ⟨c, t, hc, ht, same⟩ := h.binding hbinding
  obtain ⟨strict, component, _, hcompiles⟩ := h.component hc
  obtain ⟨rules, typeName, built⟩ := hcompiles.builtFrom ht
  rw [same]
  exact (built.rename _).attributes

/-! ### Hydrating in a registry -/

section Hydrate

variable {env : Surroundings} {bundles : String → Except Fault Bundle}

theorem Value.isElement_object (es : Entries Value) (key : String) :
    Value.isElement (.str key) (.object es) = .ok (es.has key) := by
  have any : (es.any fun e => (Value.str key).same (.str e.1)) = es.has key := by
    rw [Bool.eq_iff_iff, Entries.has_eq_true_iff, List.any_eq_true]
    simp only [Value.same, beq_iff_eq]
    constructor
    · rintro ⟨e, he, rfl⟩
      exact Entries.mem_keys_of_mem he
    · intro hkey
      obtain ⟨e, he, rfl⟩ := List.mem_map.mp hkey
      exact ⟨e, he, rfl⟩
  simp only [Value.isElement, Value.isKey, if_true, any]

/-- A record is made from checked entries as it is computed from them. -/
theorem RecordType.gives_record {t : RecordType} (attributes : (t.slots.map (·.attr)).Nodup)
    (cls : ClassId) (type : DefinitionType) (es : Entries Value)
    {part : String → Option FieldType → Action Value}
    (hpart : ∀ slot ∈ t.slots, ∀ x, es.find? slot.key = some x →
      Action.Gives env bundles (part slot.key ((type.property? slot.key).map (·.type)))
        (match type.property? slot.key with
          | some p => x.hydrated bundles p.type
          | none => .ok x)) :
    Action.Gives env bundles
      (do
        let arguments ← t.argumentsFrom type (.object es) part
        Action.lift (t.record cls arguments))
      (t.recordOf bundles type es cls) := by
  have slots : ∀ slot ∈ t.slots, Action.Gives env bundles
      (do
        if ← Action.lift (Value.isElement (.str slot.key) (.object es)) then
          let _ ← Action.lift ((Value.object es).member slot.key)
          let v ← part slot.key ((type.property? slot.key).map (·.type))
          return some (slot.attr, v)
        else return none)
      (Option.map (slot.attr, ·) <$> given bundles type es slot) := by
    intro slot hslot
    refine .bind_lift (Value.isElement_object es slot.key) ?_
    unfold Entries.has given
    cases hx : es.find? slot.key with
    | none => exact .pure none
    | some x =>
      refine .bind_lift (a := x) (by simp [Value.member, hx]) ?_
      refine ((hpart slot hslot x hx).map fun v => some (slot.attr, v)).of_iff fun a => ?_
      cases type.property? slot.key with
      | some p => simp [Except.map_eq_ok_iff]
      | none => simp
  have filled := (Action.Gives.mapM slots).bind fun found _ =>
    .lift (t.record cls (found.filterMap id))
  simp only [argumentsFrom, bind_assoc, pure_bind]
  refine filled.of_iff fun a => ?_
  simp only [recordOf, record, ← bind_assoc, Except.bind_eq_ok_iff, Except.map_eq_ok_iff,
    ← fill_eq_ok_iff attributes]
  simp only [Except.pure_eq_ok, Except.ok.injEq]

theorem Value.find?_hydrators (env : Surroundings) (es : Entries Value) (key : String) :
    Entries.find? (Value.hydrators env es) key = (es.find? key).map (Value.hydrate env) := by
  induction es with
  | nil => rfl
  | cons e rest ih =>
    obtain ⟨k, x⟩ := e
    by_cases h : k = key
    · simp [Value.hydrators, Entries.find?, h]
    · simpa [Value.hydrators, Entries.find?, h] using ih

variable (faithful : ∀ nsid b, bundles nsid = .ok b → b.Faithful nsid)
include faithful

/-- Hydrating the object that a class is bound for, if the values of its entries are hydrated as it
is computed. -/
private theorem gives_hydrate_object {es : Entries Value}
    (entries : ∀ e ∈ es, ∀ type, Action.Gives env bundles (e.2.hydrate env type)
      (e.2.hydrated bundles type)) (type : FieldType) :
    Action.Gives env bundles ((Value.object es).hydrate env type)
      ((Value.object es).hydrated bundles type) := by
  rw [Value.hydrated_object, Value.hydrate]
  cases type.core.target? es with
  | none => exact .pure _
  | some target =>
    refine (Action.Gives.bundle target.nsid).bind fun b hb => ?_
    refine (Action.Gives.lift (b.definition target.fragment)).bind fun definition _ => ?_
    cases hbinding : b.binding? target.fragment with
    | none => exact .pure _
    | some binding =>
      refine RecordType.gives_record ((faithful _ b hb).attributes hbinding) _ definition.type es ?_
      intro slot _ x hx
      rw [Value.find?_hydrators, hx]
      cases definition.type.property? slot.key with
      | none =>
        simp only [Option.map_some, Option.map_none, Entries.getValue, hx, Value.ofOption]
        exact .pure x
      | some p => exact entries _ (Entries.mem_of_find?_eq_some hx) p.type

omit faithful in
private theorem gives_hydrateItems {items : List Value} {type : FieldType}
    (h : ∀ x ∈ items, Action.Gives env bundles (x.hydrate env type) (x.hydrated bundles type)) :
    Action.Gives env bundles (Value.hydrateItems env items type)
      (items.mapM fun x => x.hydrated bundles type) := by
  induction items with
  | nil => exact .pure []
  | cons x rest ih =>
    rw [List.forall_mem_cons] at h
    rw [Value.hydrateItems, List.mapM_cons]
    exact h.1.bind fun y _ => (ih h.2).map (y :: ·)

/-- Hydrating a value in a registry gives what is computed from the bundles that it finds. -/
theorem gives_hydrate (v : Value) (type : FieldType) :
    Action.Gives env bundles (v.hydrate env type) (v.hydrated bundles type) := by
  induction v using Value.depth_induction generalizing type with
  | step v ih =>
    cases v with
    | list items =>
      rw [Value.hydrated_list, Value.hydrate]
      cases type.core with
      | array itemType =>
        refine (gives_hydrateItems fun x hx => ?_).map Value.list
        exact ih x (Value.depth_lt_of_mem_items hx) itemType
      | _ => exact .pure _
    | object es =>
      refine gives_hydrate_object faithful (fun e he partType => ?_) type
      exact ih e.2 (Value.depth_lt_of_mem_entries he) partType
    | _ =>
      rw [Value.hydrate, Value.hydrated_of_plain bundles (by simp) (by simp)]
      · exact .pure _
      · simp
      · simp

/-- A record of a class is made of a checked object as it is computed from its entries. -/
theorem RecordType.gives_ofChecked {t : RecordType} (attributes : (t.slots.map (·.attr)).Nodup)
    (cls : ClassId) (type : DefinitionType) (es : Entries Value) :
    Action.Gives env bundles (t.ofChecked env cls type (.object es))
      (t.recordOf bundles type es cls) := by
  refine gives_record attributes cls type es fun slot _ x hx => ?_
  refine .bind_lift (a := x) (by simp [Value.member, hx]) ?_
  cases type.property? slot.key with
  | none => exact .pure x
  | some p => exact gives_hydrate faithful x p.type

end Hydrate

end Lexicon
