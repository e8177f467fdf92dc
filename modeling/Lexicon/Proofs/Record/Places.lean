import Lexicon.Proofs.Record.Accepted
import Lexicon.Proofs.Registry.Idempotent

/-!
# Records in their places

The check of a value goes on to its parts by the fields of objects and the items of arrays, and at
each of them it follows references from one definition to the next. Making records takes the same
steps along the types of the definitions, but it stops at a reference to a definition without a
class: what such a definition refers to in turn is checked, and yet no record is made of it.

Main statement: wherever a check came, without passing a union, to a definition that has a class,
the record that is read holds a record of this class if all definitions that were passed have
classes too, and otherwise the object that the check made.
-/

namespace Lexicon

/-! ### What stands at a place -/

/-- The part of a value that a path leads to, where the key of a slot leads to what a record holds
there. -/
def Path.held? : Path → Value → Option Value
  | [], v => some v
  | .key name :: rest, .object entries => (Entries.find? entries name).bind (held? rest)
  | .key name :: rest, .record cls attributes =>
    ((Entries.find? cls.slots name).bind (Entries.find? attributes)).bind (held? rest)
  | .index i :: rest, .list items => items[i]?.bind (held? rest)
  | _ :: _, _ => none

theorem Path.held?_append (p q : Path) (v : Value) :
    Path.held? (p ++ q) v = (Path.held? p v).bind (Path.held? q) := by
  induction p generalizing v with
  | nil => rfl
  | cons step rest ih =>
    have ih' : held? (rest ++ q) = fun v => (held? rest v).bind (held? q) := funext ih
    cases step <;> cases v <;> simp [held?, Option.bind_assoc, ih']

/-- What stands at a place in a value is as asked, and something does, unless the place is below the
type of an object. -/
structure Value.HoldsAt (P : Value → Prop) (path : Path) (x : Value) : Prop where
  all : ∀ y, Path.held? path x = some y → P y
  exists_of_notMem : .key Naming.typeKey ∉ path → ∃ y, Path.held? path x = some y

namespace Value.HoldsAt

variable {P Q : Value → Prop} {p q rest : Path} {x y : Value}

theorem nil (h : P x) : HoldsAt P [] x where
  all _ hy := Option.some.inj hy ▸ h
  exists_of_notMem _ := ⟨x, rfl⟩

theorem imp (h : HoldsAt P p x) (hPQ : ∀ y, P y → Q y) : HoldsAt Q p x where
  all y hy := hPQ y (h.all y hy)
  exists_of_notMem := h.exists_of_notMem

theorem append (h : HoldsAt (HoldsAt P q) p x) : HoldsAt P (p ++ q) x where
  all y hy := by
    rw [Path.held?_append] at hy
    obtain ⟨z, hz, hy⟩ := Option.bind_eq_some_iff.mp hy
    exact (h.all z hz).all y hy
  exists_of_notMem apart := by
    rw [List.mem_append, not_or] at apart
    obtain ⟨z, hz⟩ := h.exists_of_notMem apart.1
    obtain ⟨y, hy⟩ := (h.all z hz).exists_of_notMem apart.2
    exact ⟨y, by rw [Path.held?_append, hz, Option.bind_some, hy]⟩

theorem item {ys : List Value} {i : Nat} (hy : ys[i]? = some y) (h : HoldsAt P rest y) :
    HoldsAt P (.index i :: rest) (.list ys) := by
  have step : Path.held? (.index i :: rest) (.list ys) = Path.held? rest y := by
    rw [Path.held?, hy, Option.bind_some]
  constructor
  · rw [step]
    exact h.all
  · intro apart
    rw [step]
    exact h.exists_of_notMem fun hmem => apart (List.mem_cons_of_mem _ hmem)

theorem slot {cls : RecordClass} {attributes : Entries Value} {key : String}
    (all : ∀ attr z, Entries.find? cls.slots key = some attr →
      attributes.find? attr = some z → HoldsAt P rest z)
    (exists_of_ne : key ≠ Naming.typeKey → ∃ attr z, Entries.find? cls.slots key = some attr ∧
      attributes.find? attr = some z) :
    HoldsAt P (.key key :: rest) (.record cls attributes) where
  all y hy := by
    obtain ⟨z, hz, hy⟩ := Option.bind_eq_some_iff.mp hy
    obtain ⟨attr, hattr, hz⟩ := Option.bind_eq_some_iff.mp hz
    exact (all attr z hattr hz).all y hy
  exists_of_notMem apart := by
    rw [List.mem_cons, not_or] at apart
    obtain ⟨attr, z, hattr, hz⟩ := exists_of_ne fun same => apart.1 (same ▸ rfl)
    obtain ⟨y, hy⟩ := (all attr z hattr hz).exists_of_notMem apart.2
    exact ⟨y, by rw [Path.held?, hattr, Option.bind_some, hz, Option.bind_some, hy]⟩

end Value.HoldsAt

namespace Registry

variable (env : Surroundings) (r : Registry)

/-! ### Where a check comes to -/

/-- A reference leads to a definition that has a class. -/
def HasClass (target : Reference) : Prop :=
  ∃ b binding, r.found env target.nsid = .ok b ∧ b.binding? target.fragment = some binding

/-- A record of the class that a reference leads to. -/
def IsInstance (target : Reference) (x : Value) : Prop :=
  ∃ b binding attributes, r.found env target.nsid = .ok b ∧
    b.binding? target.fragment = some binding ∧
    x = .record (b.recordClass target.fragment binding) attributes

/-- The check of a value by a schema comes to the part `w` at a path and checks it by the definition
of `target`. It enters arrays and declared fields on the way and follows references, each of which
is `through`; it passes no union. -/
inductive Checks (through : Reference → Prop) : Schema → Value → Path → Reference → Value → Prop
  | here (target : Reference) (v : Value) : Checks through (.ref target) v [] target v
  | follow {next target : Reference} {c : CompiledDefinition} {v w : Value} {path : Path}
      (hnext : through next) (hc : r.meaning env next = .ok c)
      (h : Checks through c.schema v path target w) : Checks through (.ref next) v path target w
  | item {items : Schema} {bounds : Bounds} {v x w : Value} {i : Nat} {path : Path}
      {target : Reference} (hx : Path.follow? [.index i] v = some x)
      (h : Checks through items x path target w) :
      Checks through (.array items bounds) v (.index i :: path) target w
  | field {fields : List (String × Schema)} {extra : Option Schema} {closed : Bool}
      {es : Entries Value} {key : String} {s : Schema} {x w : Value} {path : Path}
      {target : Reference} (hs : Entries.find? fields key = some s) (hx : es.find? key = some x)
      (h : Checks through s x path target w) :
      Checks through (.object fields extra closed) (.object es) (.key key :: path) target w
  | required {s : Schema} {v w : Value} {path : Path} {target : Reference}
      (h : Checks through s v path target w) : Checks through (.required s) v path target w
  | nullable {s : Schema} {v w : Value} {path : Path} {target : Reference} (proper : v ≠ .null)
      (h : Checks through s v path target w) : Checks through (.nullable s) v path target w
  | withDefault {s : Schema} {v w d : Value} {path : Path} {target : Reference}
      (h : Checks through s v path target w) : Checks through (.withDefault s d) v path target w

variable {env r} {through : Reference → Prop} {s : Schema} {v w : Value} {path : Path}
  {target : Reference}

/-- A check that comes to a part by a reference passes a link of its schema. -/
theorem Checks.links_ne_nil (h : r.Checks env through s v path target w) : s.links ≠ [] := by
  induction h with
  | here | follow => simp [Schema.links]
  | item _ _ ih | required _ ih | nullable _ _ ih | withDefault _ ih =>
    simpa [Schema.links] using ih
  | @field fields extra _ _ _ s _ _ _ _ hs _ _ ih =>
    have within : s.links ⊆ (Schema.fields fields).links :=
      Schema.links_subset_of_mem (Entries.mem_of_find?_eq_some hs)
    intro none
    have declared : Schema.linksOfFields fields = [] := by
      cases extra with
      | none => exact none
      | some extra => exact (List.append_eq_nil_iff.mp none).1
    exact ih (List.subset_nil.mp (declared ▸ within))

/-- A check passes definitions with classes up to the part that it came for, or to a reference to
the first definition without one. -/
theorem Checks.split (h : r.Checks env through s v path target w) :
    ∃ p q next x, path = p ++ q ∧ r.Checks env (r.HasClass env) s v p next x ∧
      r.Checks env through (.ref next) x q target w ∧
      (r.HasClass env next → q = [] ∧ next = target ∧ x = w) := by
  induction h with
  | here target v =>
    exact ⟨[], [], target, v, rfl, .here target v, .here target v, fun _ => ⟨rfl, rfl, rfl⟩⟩
  | @follow next _ _ v _ path hnext hc h ih =>
    by_cases hclass : r.HasClass env next
    · obtain ⟨p, q, last, x, rfl, walk, rest⟩ := ih
      exact ⟨p, q, last, x, rfl, .follow hclass hc walk, rest⟩
    · exact ⟨[], path, next, v, rfl, .here next v, .follow hnext hc h, fun has => absurd has hclass⟩
  | item hx _ ih =>
    obtain ⟨p, q, last, x, rfl, walk, rest⟩ := ih
    exact ⟨_, q, last, x, rfl, .item hx walk, rest⟩
  | field hs hx _ ih =>
    obtain ⟨p, q, last, x, rfl, walk, rest⟩ := ih
    exact ⟨_, q, last, x, rfl, .field hs hx walk, rest⟩
  | required _ ih =>
    obtain ⟨p, q, last, x, rfl, walk, rest⟩ := ih
    exact ⟨p, q, last, x, rfl, .required walk, rest⟩
  | nullable proper _ ih =>
    obtain ⟨p, q, last, x, rfl, walk, rest⟩ := ih
    exact ⟨p, q, last, x, rfl, .nullable proper walk, rest⟩
  | withDefault _ ih =>
    obtain ⟨p, q, last, x, rfl, walk, rest⟩ := ih
    exact ⟨p, q, last, x, rfl, .withDefault walk, rest⟩

/-! ### What a check makes of a part -/

/-- An item of an array is made into the item in its place. -/
theorem exists_item_of_normalized {items : Schema} {bounds : Bounds} {v x m : Value} {i : Nat}
    (hx : Path.follow? [.index i] v = some x)
    (hm : r.normalized env (.array items bounds) v [] = .ok m) :
    ∃ ys y, m = .list ys ∧ ys[i]? = some y ∧ r.normalized env items x [] = .ok y := by
  obtain ⟨xs, ys, hv, rfl, hys⟩ := forall₂_of_normalized hm
  have hi : xs[i]?.bind some = some x := by rcases hv with rfl | rfl <;> exact hx
  rw [Option.bind_fun_some] at hi
  obtain ⟨y, made, hy⟩ := hys.exists_getElem? hi
  exact ⟨ys, y, rfl, hy, made.2⟩

/-- What an object holds under the key of a declared field is made into what stands there. -/
theorem exists_entry_of_normalized {fields : List (String × Schema)} {extra : Option Schema}
    {closed : Bool} {es : Entries Value} {key : String} {s : Schema} {x m : Value}
    (hs : Entries.find? fields key = some s) (hx : es.find? key = some x)
    (hm : r.normalized env (.object fields extra closed) (.object es) [] = .ok m) :
    ∃ (ms : Entries Value) (y : Value), m = .object ms ∧ ms.find? key = some y ∧
      r.normalized env s x [] = .ok y := by
  obtain ⟨_, parts, others, ⟨⟩, hparts, -, rfl⟩ := Schema.outcome_object_eq_ok_iff.mp hm
  obtain ⟨y, hy, found⟩ := Schema.find?_parts_of_found hparts hs hx
  have depth : x.depth ≤ (Value.object es).depth := (Value.depth_lt_of_found hx).le
  refine ⟨_, y, rfl, ?_, normalized_of_part depth hy⟩
  rw [Entries.find?_append, found, Option.some_or]

/-- Allowing null makes no difference to another value. -/
theorem normalized_nullable (proper : v ≠ .null) :
    r.normalized env (.nullable s) v path = r.normalized env s v path := by
  cases v <;> simp_all [normalized, Schema.checkWith]

/-- Where a check comes to a part, it leaves what the reference makes of the part. -/
theorem Checks.holdsAt_normalized (h : r.Checks env through s v path target w) {m : Value}
    (hm : r.normalized env s v [] = .ok m) :
    ∃ n, Path.held? path m = some n ∧ r.normalized env (.ref target) w [] = .ok n := by
  induction h generalizing m with
  | here => exact ⟨m, rfl, hm⟩
  | follow _ hc _ ih =>
    obtain ⟨c, meaning, hm⟩ := normalized_ref_eq_ok_iff.mp hm
    obtain rfl := Except.ok.inj (hc.symm.trans meaning)
    exact ih hm
  | item hx _ ih =>
    obtain ⟨ys, y, rfl, hy, made⟩ := exists_item_of_normalized hx hm
    obtain ⟨n, hn, checked⟩ := ih made
    exact ⟨n, by rw [Path.held?, hy, Option.bind_some, hn], checked⟩
  | field hs hx _ ih =>
    obtain ⟨ms, y, rfl, hy, made⟩ := exists_entry_of_normalized hs hx hm
    obtain ⟨n, hn, checked⟩ := ih made
    exact ⟨n, by rw [Path.held?, hy, Option.bind_some, hn], checked⟩
  | required _ ih | withDefault _ ih => exact ih hm
  | nullable proper _ ih => exact ih (normalized_nullable proper ▸ hm)

/-! ### Schemas beside types -/

section Beside

variable (env r)

/-- A schema and a type such that making records goes by the type where the check goes by the
schema. The schema of a definition with a class stands beside a reference to it. -/
inductive Beside : Schema → FieldType → Prop
  | alone {s : Schema} {t : FieldType} (none : s.links = []) : Beside s t
  | array {s : Schema} {t : FieldType} (items : Beside s t) (bounds : Bounds) :
      Beside (.array s bounds) (.array t)
  | ref (target : Reference) : Beside (.ref target) (.ref target)
  | union (targets : List Reference) (t : FieldType) : Beside (.union targets) t
  | required {s : Schema} {t : FieldType} (inner : Beside s t) : Beside (.required s) t
  | nullable {s : Schema} {t : FieldType} (inner : Beside s t) : Beside (.nullable s) (.nullable t)
  | definition {fields : List (String × Schema)} {target : Reference} {c : CompiledDefinition}
      (hc : r.meaning env target = .ok c) (hclass : r.HasClass env target)
      (hs : c.schema = .fields fields) : Beside (.object fields none false) (.ref target)

end Beside

theorem beside_addDefault {f : Field} {s : Schema} (h : s.Scalar) (t : FieldType) :
    r.Beside env (f.addDefault s) t := by
  apply Beside.alone
  unfold Field.addDefault
  split <;> cases h <;> rfl

/-- A field is compiled to a schema beside its type. -/
theorem beside_of_compiles {nsid : String} {strict : Bool} {f : Field} {c : CompiledField}
    (h : Field.Compiles nsid strict f c) : r.Beside env c.schema c.type := by
  induction h with
  | array _ ih => exact .array ih _
  | string _ hschema => exact beside_addDefault (Field.scalar_of_stringSchema hschema) _
  | boolean _ hfixed => exact beside_addDefault (Field.scalar_getD hfixed .boolean) _
  | integer _ hfixed => exact beside_addDefault (Field.scalar_getD hfixed (.integer _)) _
  | ref => exact .ref _
  | union => exact .union _ _
  | blob | bytes | cidLink | unknown | unrecognized => exact .alone rfl

/-- The marks of a property keep its schema beside its type. -/
theorem Beside.property {compiled : CompiledField} (h : r.Beside env compiled.schema compiled.type)
    (name : String) (f : Field) (required nullable : Bool) :
    r.Beside env (Definition.CompiledProperty.of name f compiled required nullable).schema
      (Definition.CompiledProperty.of name f compiled required nullable).property.type := by
  cases required <;> cases nullable
  · exact h
  · exact h.nullable
  · exact h.required
  · exact h.nullable.required

/-- A definition with a class is an object whose properties have schemas beside their types. -/
theorem exists_properties (sound : r.Sound) {target : Reference} {b : Bundle} {binding : Binding}
    {c : CompiledDefinition} (hb : r.found env target.nsid = .ok b)
    (hbinding : b.binding? target.fragment = some binding) (hc : r.meaning env target = .ok c) :
    ∃ (properties : List Definition.CompiledProperty) (typeName : Option String),
      c.schema = .fields (Definition.fieldsOf properties) ∧
      c.type = .object (properties.map (·.property)) ∧
      binding.recordType.slots =
        (RecordType.arrange (properties.map (·.rule)) typeName).map RecordType.slotOf ∧
      ∀ p ∈ properties, r.Beside env p.schema p.property.type ∧ p.rule.key = p.property.name := by
  obtain ⟨b', hb', hdefinition⟩ := meaning_eq_ok_iff.mp hc
  obtain rfl := Except.ok.inj (hb.symm.trans hb')
  have faithful := sound.found hb
  obtain ⟨c', t, hc', ht, renamed⟩ := faithful.binding hbinding
  obtain rfl := Option.some.inj (hdefinition.symm.trans hc')
  obtain ⟨_, component, hmem, compiles⟩ := faithful.component hdefinition
  obtain ⟨e, _, he⟩ := List.mem_flatMap.mp hmem
  have made := Definition.made_of_mem_components he
  rw [faithful.id_eq] at made
  obtain ⟨properties, typeName, schema_eq, type_eq, built, beside⟩ :=
    compiles.exists_compiledProperties made ht
      (Q := fun p => r.Beside env p.schema p.property.type ∧ p.rule.key = p.property.name)
      (fun _ _ _ _ _ h => ⟨(beside_of_compiles h).property _ _ _ _, rfl⟩)
      (fun _ _ => ⟨Beside.property (.ref _) _ _ _ _, rfl⟩)
      ⟨.alone rfl, rfl⟩
  refine ⟨properties, typeName, schema_eq, type_eq, ?_, beside⟩
  rw [renamed]
  exact built.slots_eq

/-- The schema of a definition with a class stands beside a reference to it. -/
theorem beside_of_hasClass (sound : r.Sound) {target : Reference} {c : CompiledDefinition}
    (hc : r.meaning env target = .ok c) (hclass : r.HasClass env target) :
    r.Beside env c.schema (.ref target) := by
  have ⟨b, binding, hb, hbinding⟩ := hclass
  obtain ⟨_, _, schema_eq, -⟩ := exists_properties sound hb hbinding hc
  have beside := Beside.definition hc hclass schema_eq
  rwa [← Schema.fields, ← schema_eq] at beside

/-! ### What records hold in their places -/

/-- The first property with the name of a field has its schema. -/
theorem exists_property?_of_find? {properties : List Definition.CompiledProperty} {key : String}
    {s : Schema} (h : Entries.find? (Definition.fieldsOf properties) key = some s) :
    ∃ p ∈ properties, p.property.name = key ∧ p.schema = s ∧
      (DefinitionType.object (properties.map (·.property))).property? key = some p.property := by
  induction properties with
  | nil => cases h
  | cons first rest ih =>
    by_cases named : first.property.name = key
    · refine ⟨first, List.mem_cons_self, named, ?_, ?_⟩
      · simpa [Definition.fieldsOf, Entries.find?, named] using h
      · simp [DefinitionType.property?, DefinitionType.properties, named]
    · obtain ⟨p, hp, hname, hschema, found⟩ :=
        ih (by simpa [Definition.fieldsOf, Entries.find?, named] using h)
      refine ⟨p, List.mem_cons_of_mem _ hp, hname, hschema, ?_⟩
      simpa [DefinitionType.property?, DefinitionType.properties, named] using found

/-- What is made of the part under the key of a field stands in the slot of this key. -/
private theorem holdsAt_slot (sound : r.Sound) {target : Reference} {c : CompiledDefinition}
    {fields : List (String × Schema)} (hc : r.meaning env target = .ok c)
    (hclass : r.HasClass env target) (hfields : c.schema = .fields fields) {key : String}
    {s : Schema} (hs : Entries.find? fields key = some s) {ms : Entries Value} {y : Value}
    (hy : ms.find? key = some y) {x : Value}
    (hx : (Value.object ms).hydrated (r.found env) (.ref target) = .ok x) {P : Value → Prop}
    {rest : Path}
    (part : ∀ t z, r.Beside env s t → y.hydrated (r.found env) t = .ok z → z.HoldsAt P rest) :
    x.HoldsAt P (.key key :: rest) := by
  obtain ⟨b, binding, hb, hbinding⟩ := hclass
  obtain ⟨properties, typeName, schema_eq, type_eq, slots_eq, beside⟩ :=
    exists_properties sound hb hbinding hc
  obtain rfl : fields = Definition.fieldsOf properties :=
    (Schema.object.inj (hfields.symm.trans schema_eq)).1
  obtain ⟨p, hp, rfl, rfl, property⟩ := exists_property?_of_find? hs
  obtain ⟨b', hb', hdefinition⟩ := meaning_eq_ok_iff.mp hc
  obtain rfl := Except.ok.inj (hb.symm.trans hb')
  rw [hydrated_of_binding hb hdefinition hbinding, RecordType.recordOf, type_eq] at hx
  obtain ⟨attributes, made, rfl⟩ := Except.map_eq_ok_iff.mp hx
  have distinct := (sound.found hb).attributes hbinding
  -- any slot of the key holds the part, the slot for the type of a record too
  have held {slot : Slot} (hslot : slot ∈ binding.recordType.slots)
      (hkey : slot.key = p.property.name) :
      ∃ z, y.hydrated (r.found env) p.property.type = .ok z ∧
        Entries.find? attributes slot.attr = some z := by
    obtain ⟨z, holds, found⟩ := RecordType.holds_of_attributesOf distinct made hslot
    rw [hkey, property, hy, Option.map_some] at holds
    cases holds with
    | made hz => exact ⟨z, hz, found⟩
  apply Value.HoldsAt.slot
  · intro attr z hattr hz
    obtain ⟨slot, hslot, same⟩ := List.mem_map.mp (Entries.mem_of_find?_eq_some hattr)
    obtain ⟨hkey, rfl⟩ := Prod.mk.inj same
    obtain ⟨z', hz', found⟩ := held hslot hkey
    obtain rfl := Option.some.inj (found.symm.trans hz)
    exact part _ _ (beside p hp).1 hz'
  · intro proper
    -- the arrangement of the slots leaves out no property but the type
    have ruled : p.rule ∈ RecordType.arrange (properties.map (·.rule)) typeName := by
      refine Definition.mem_arrange_iff.mpr (.inl ⟨List.mem_map_of_mem hp, ?_⟩)
      rw [(beside p hp).2]
      exact proper
    have hslot : RecordType.slotOf p.rule ∈ binding.recordType.slots :=
      slots_eq ▸ List.mem_map_of_mem ruled
    have present : p.property.name ∈ Entries.keys (binding.recordType.slots.map
        fun slot => (slot.key, slot.attr)) := by
      rw [Entries.keys, List.map_map]
      exact List.mem_map.mpr ⟨_, hslot, (beside p hp).2⟩
    obtain ⟨attr, hattr⟩ := Option.isSome_iff_exists.mp (Entries.has_eq_true_iff.mpr present)
    obtain ⟨slot, hslot', same⟩ := List.mem_map.mp (Entries.mem_of_find?_eq_some hattr)
    obtain ⟨hkey, rfl⟩ := Prod.mk.inj same
    obtain ⟨z, -, found⟩ := held hslot' hkey
    exact ⟨slot.attr, z, hattr, found⟩

/-- Where a check comes to a part through definitions with classes, the record that is made holds
what is made of the part by the reference. The induction is on the way of the check. -/
theorem Checks.holdsAt_hydrated (sound : r.Sound)
    (h : r.Checks env (r.HasClass env) s v path target w) {t : FieldType}
    (beside : r.Beside env s t) {m x : Value} (hm : r.normalized env s v [] = .ok m)
    (hx : m.hydrated (r.found env) t = .ok x) :
    x.HoldsAt (fun y => ∃ n, r.normalized env (.ref target) w [] = .ok n ∧
      n.hydrated (r.found env) (.ref target) = .ok y) path := by
  induction h generalizing t m x with
  | here =>
    cases beside with
    | alone none => simp [Schema.links] at none
    | ref => exact .nil ⟨m, hm, hx⟩
  | follow hnext hc walk ih =>
    cases beside with
    | alone none => simp [Schema.links] at none
    | ref =>
      obtain ⟨c, meaning, hm⟩ := normalized_ref_eq_ok_iff.mp hm
      obtain rfl := Except.ok.inj (hc.symm.trans meaning)
      exact ih (beside_of_hasClass sound hc hnext) hm hx
  | item hi walk ih =>
    cases beside with
    | alone none => exact absurd none walk.links_ne_nil
    | array items =>
      obtain ⟨ys, y, rfl, hy, made⟩ := exists_item_of_normalized hi hm
      rw [Value.hydrated_list] at hx
      obtain ⟨zs, hzs, rfl⟩ := Except.map_eq_ok_iff.mp hx
      obtain ⟨z, hz, found⟩ := (Except.mapM_eq_ok_iff.mp hzs).exists_getElem? hy
      exact .item found (ih items made hz)
  | field hs hi walk ih =>
    cases beside with
    | alone none => exact absurd none (Checks.field hs hi walk).links_ne_nil
    | definition hc hclass hfields =>
      obtain ⟨ms, y, rfl, hy, made⟩ := exists_entry_of_normalized hs hi hm
      exact holdsAt_slot sound hc hclass hfields hs hy hx fun t z beside hz => ih beside made hz
  | required walk ih =>
    cases beside with
    | alone none => exact absurd none walk.links_ne_nil
    | required inner => exact ih inner hm hx
  | nullable proper walk ih =>
    cases beside with
    | alone none => exact absurd none walk.links_ne_nil
    | nullable inner =>
      rw [Value.hydrated_nullable] at hx
      exact ih inner (normalized_nullable proper ▸ hm) hx
  | withDefault walk ih =>
    cases beside with
    | alone none => exact absurd none walk.links_ne_nil

/-- What a reference to a definition with a class makes of a value is an object, and a record of the
class is made of it. -/
theorem HasClass.made (hclass : r.HasClass env target) (sound : r.Sound) {n : Value}
    (hn : r.normalized env (.ref target) w [] = .ok n) :
    (∃ ms, n = .object ms) ∧
      ∀ y, n.hydrated (r.found env) (.ref target) = .ok y → r.IsInstance env target y := by
  obtain ⟨b, binding, hb, hbinding⟩ := hclass
  obtain ⟨c, hc, hn⟩ := normalized_ref_eq_ok_iff.mp hn
  obtain ⟨_, _, schema_eq, -⟩ := exists_properties sound hb hbinding hc
  rw [schema_eq] at hn
  obtain ⟨ms, rfl⟩ := Schema.exists_entries hn
  obtain ⟨b', hb', hdefinition⟩ := meaning_eq_ok_iff.mp hc
  obtain rfl := Except.ok.inj (hb.symm.trans hb')
  refine ⟨⟨ms, rfl⟩, fun y hy => ?_⟩
  rw [hydrated_of_binding hb hdefinition hbinding] at hy
  obtain ⟨attributes, _, rfl⟩ := Except.map_eq_ok_iff.mp hy
  exact ⟨b, binding, attributes, hb, hbinding, rfl⟩

/-- What a reference to a definition without a class makes of a value stays as it is. -/
theorem eq_of_not_hasClass (without : ¬ r.HasClass env target) {n y : Value}
    (hn : r.normalized env (.ref target) w [] = .ok n)
    (hy : n.hydrated (r.found env) (.ref target) = .ok y) : y = n := by
  obtain ⟨c, hc, _⟩ := normalized_ref_eq_ok_iff.mp hn
  obtain ⟨b, hb, hdefinition⟩ := meaning_eq_ok_iff.mp hc
  have unbound : b.binding? target.fragment = none := by
    by_contra bound
    obtain ⟨binding, hbinding⟩ := Option.ne_none_iff_exists'.mp bound
    exact without ⟨b, binding, hb, hbinding⟩
  rw [hydrated_of_unbound hb hdefinition unbound] at hy
  exact (Except.ok.inj hy).symm

/-- Where a check passes a definition without a class, what it made of the part stays as it is. -/
theorem Checks.holdsAt_of_not (sound : r.Sound) (h : r.Checks env through s v path target w)
    (without : ¬ r.Checks env (r.HasClass env) s v path target w) {t : FieldType}
    (beside : r.Beside env s t) {m x : Value} (hm : r.normalized env s v [] = .ok m)
    (hx : m.hydrated (r.found env) t = .ok x) :
    x.HoldsAt (fun y => r.normalized env (.ref target) w [] = .ok y) path := by
  obtain ⟨p, q, next, z, rfl, walk, rest, last⟩ := h.split
  have stops : ¬ r.HasClass env next := by
    intro hclass
    obtain ⟨rfl, rfl, rfl⟩ := last hclass
    rw [List.append_nil] at without
    exact without walk
  -- the rest of the way lies within what the first definition without a class made
  apply Value.HoldsAt.append
  refine (walk.holdsAt_hydrated sound beside hm hx).imp ?_
  rintro y ⟨n, hn, hy⟩
  obtain rfl := eq_of_not_hasClass stops hn hy
  obtain ⟨k, hk, made⟩ := rest.holdsAt_normalized hn
  exact ⟨fun k' hk' => Option.some.inj (hk.symm.trans hk') ▸ made, fun _ => ⟨k, hk⟩⟩

end Registry

/-! ### Reading records -/

section Reading

variable {env : Surroundings} {s : Store} {nsid key : String} {b : Bundle}

/-- What a class reads is what is made of the value by a reference to its definition. -/
theorem Bundle.exists_normalized_of_readRecord (sound : s.registry.Sound)
    (hb : s.registry.found env nsid = .ok b) {data x : Value}
    (hx : ((b.readRecord env key data).run s).1 = .ok x) :
    ∃ m, s.registry.normalized env (.ref ⟨nsid, key⟩) data [] = .ok m ∧
      m.hydrated (s.registry.found env) (.ref ⟨nsid, key⟩) = .ok x := by
  obtain ⟨c, binding, hc, hbinding⟩ := Bundle.exists_of_readRecord hx
  obtain ⟨m, hm, hx⟩ := Except.bind_eq_ok_iff.mp
    (((Bundle.gives_readRecord sound hb hc hbinding data s rfl).2 x).mp hx)
  have meaning : s.registry.meaning env ⟨nsid, key⟩ = .ok c :=
    Registry.meaning_eq_ok_iff.mpr ⟨b, hb, hc⟩
  exact ⟨m, Registry.normalized_ref_eq_ok_iff.mpr ⟨c, meaning, hm⟩, hx⟩

end Reading

/-! ### A reference to a reference -/

/-- A document of an object that lists things, and that has one more of them by a definition that is
itself a reference. -/
def aliasDocument : Document where
  id := "com.example.alias"
  definitions := [
    ("main", .object { properties := [
      ("part", { type := .str "ref", options := [("ref", .str "#alias")] }),
      ("rows", .mk (.str "array") []
        (some { type := .str "ref", options := [("ref", .str "#thing")] }) .null)] }),
    ("alias", .field { type := .str "ref", options := [("ref", .str "#thing")] }),
    ("thing", .object { properties := [] })]
  version := .int 1
  revision := .null
  description := .null
  source := .null

/-- A store whose registry loads this document. -/
def aliasStore : Store :=
  ⟨{ id := 0, sources := [.documents [aliasDocument]], strict := some true }, []⟩

/-- A reference to a definition of this document. -/
def aliasTarget (key : String) : Reference := ⟨"com.example.alias", key⟩

/-- Following a reference to a definition with a given schema. -/
private theorem Registry.Checks.of_schema {env : Surroundings} {r : Registry}
    {through : Reference → Prop} {next target : Reference} {schema : Schema} {v w : Value}
    {path : Path} (hnext : through next)
    (h : (r.meaning env next).toOption.map (·.schema) = some schema)
    (walk : r.Checks env through schema v path target w) :
    r.Checks env through (.ref next) v path target w := by
  obtain ⟨c, hc, rfl⟩ := Option.map_eq_some_iff.mp h
  exact .follow hnext (Except.eq_ok_of_toOption_eq_some hc) walk

private theorem schema_aliasMain :
    (aliasStore.registry.meaning {} (aliasTarget "main")).toOption.map (·.schema) =
      some (.object [("part", .ref (aliasTarget "alias")),
        ("rows", .array (.ref (aliasTarget "thing")) {})] none false) := by
  rfl

private theorem schema_aliasPart :
    (aliasStore.registry.meaning {} (aliasTarget "alias")).toOption.map (·.schema) =
      some (.ref (aliasTarget "thing")) := by
  rfl

private theorem hasClass_alias : ∀ key ∈ ["main", "thing"],
    aliasStore.registry.HasClass {} (aliasTarget key) := by
  intro key hkey
  have bound : ∀ key ∈ ["main", "thing"],
      ((aliasStore.registry.found {} "com.example.alias").toOption.bind (·.binding? key)).isSome =
        true := by decide +kernel
  obtain ⟨binding, h⟩ := Option.isSome_iff_exists.mp (bound key hkey)
  obtain ⟨b, hb, hbinding⟩ := Option.bind_eq_some_iff.mp h
  exact ⟨b, binding, Except.eq_ok_of_toOption_eq_some hb, hbinding⟩

/-- What stands at a place in the record that a class reads of a value. -/
private def readAt? (s : Store) (target : Reference) (data : Value) (path : Path) :
    Option Value := do
  let b ← (s.registry.found {} target.nsid).toOption
  let x ← ((b.readRecord {} target.fragment data).run s).1.toOption
  Path.held? path x

private theorem exists_of_readAt? {s : Store} {target : Reference} {data y : Value} {path : Path}
    (h : readAt? s target data path = some y) :
    ∃ b x, s.registry.found {} target.nsid = .ok b ∧
      ((b.readRecord {} target.fragment data).run s).1 = .ok x ∧ Path.held? path x = some y := by
  obtain ⟨b, hb, h⟩ := Option.bind_eq_some_iff.mp h
  obtain ⟨x, hx, held⟩ := Option.bind_eq_some_iff.mp h
  exact ⟨b, x, Except.eq_ok_of_toOption_eq_some hb, Except.eq_ok_of_toOption_eq_some hx, held⟩

end Lexicon
