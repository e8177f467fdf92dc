import Lexicon.Proofs.Compile.Definition
import Lexicon.Proofs.Compile.Field
import Lexicon.Proofs.Registry.Verdict
import Lexicon.Proofs.Schema.Links
import Lexicon.Proofs.Schema.Object

/-!
# What compiled objects accept

The meaning of a record or an object in terms of its properties: which values are present, which may
be null, and which have a default. Main statement: the compiled schema of a record or an object
accepts exactly the objects whose declared properties are all in order, and the result holds the
parts of these in order of declaration and then the undeclared entries as they are.
-/

namespace Lexicon

namespace Definition

/-- The object that a definition describes, if it is a record or an object. -/
def body? : Definition → Option ObjectBody
  | .record body _ _ | .object body => some body
  | _ => none

/-- The properties of a record or an object under a name. The type of a record is fixed. -/
def declared (nsid key : String) : Definition → Entries Field
  | .record body _ _ =>
    body.properties.merge [(Naming.typeKey, brandField (Reference.text ⟨nsid, key⟩))]
  | .object body => body.properties
  | _ => []

/-- What a property puts into the normalized object: its value, normalized as `accepts` relates it
to the value that is given, unless that is null and may be; its default; or nothing. -/
inductive Puts (accepts : Value → Value → Prop) (body : ObjectBody) (es : Entries Value)
    (name : String) (field : Field) : Option (String × Value) → Prop
  | null (given : es.find? name = some .null) (nullable : .str name ∈ body.nullable) :
      Puts accepts body es name field (some (name, .null))
  | value {x y : Value} (given : es.find? name = some x)
      (proper : x = .null → .str name ∉ body.nullable) (accepted : accepts x y) :
      Puts accepts body es name field (some (name, y))
  | default {value : Value} (absent : es.find? name = none)
      (default : field.default? = some value) :
      Puts accepts body es name field (some (name, value))
  | nothing (absent : es.find? name = none) (default : field.default? = none)
      (required : .str name ∉ body.required) (type : name ≠ Naming.typeKey) :
      Puts accepts body es name field none

theorem exists_objectCompiles {nsid key className : String} {strict : Bool} {d : Definition}
    {body : ObjectBody} (hbody : d.body? = some body) {cs : List CompiledDefinition}
    (h : (d.compile nsid key className strict).outcome = .ok cs) :
    ∃ typeName brand compiled recordType c, cs = [c] ∧
      body.properties.merge brand = d.declared nsid key ∧
      ObjectCompiles nsid key className strict body typeName brand compiled recordType c := by
  cases d with
  | record body' rkey description =>
    obtain rfl := Option.some.inj hbody
    obtain ⟨c, hc, h⟩ := Traced.outcome_bind_eq_ok_iff.mp h
    obtain ⟨compiled, recordType, hc⟩ := objectCompiles_of_outcome hc
    exact ⟨_, _, compiled, recordType, c, (Except.ok.inj h).symm, rfl, hc⟩
  | object body' =>
    obtain rfl := Option.some.inj hbody
    obtain ⟨c, hc, h⟩ := Traced.outcome_bind_eq_ok_iff.mp h
    obtain ⟨compiled, recordType, hc⟩ := objectCompiles_of_outcome hc
    exact ⟨_, _, compiled, recordType, c, (Except.ok.inj h).symm, rfl, hc⟩
  | _ => simp [body?] at hbody

theorem isNull_eq_true_iff {v : Value} : v.isNull = true ↔ v = .null := by
  cases v <;> simp [Value.isNull]

theorem null_and_mayBeNull_iff {body : ObjectBody} {name : String} {x : Value} :
    (mayBeNull body name && x.isNull) = true ↔ .str name ∈ body.nullable ∧ x = .null := by
  rw [Bool.and_eq_true, mayBeNull_eq_true_iff, isNull_eq_true_iff]

/-! ### One property -/

namespace CompiledProperty

variable {name : String} {field : Field} {compiled : CompiledField} {required nullable : Bool}

theorem checkWith_of {σ : Type} (follow : Reference → Value → Path → Check σ Value) (x : Value)
    (path : Path) :
    (of name field compiled required nullable).schema.checkWith follow x path =
      if nullable && x.isNull then pure .null else compiled.schema.checkWith follow x path := by
  cases required <;> cases nullable <;> cases x <;> simp [of, Schema.checkWith, Value.isNull]

theorem default?_of :
    (of name field compiled required nullable).schema.default? = compiled.schema.default? := by
  cases required <;> cases nullable <;> simp [of, Schema.default?]

theorem links_of :
    (of name field compiled required nullable).schema.links = compiled.schema.links := by
  cases required <;> cases nullable <;> rfl

theorem isRequired_of (optional : compiled.schema.isRequired = false) :
    (of name field compiled required nullable).schema.isRequired = required := by
  cases required <;> cases nullable <;> simp [of, Schema.isRequired, optional]

end CompiledProperty

section Property

variable {nsid : String} {strict : Bool} {body : ObjectBody} {e : String × Field}
  {p : CompiledProperty}

/-- What the schema of a property puts into the result is what the property does. -/
theorem part_eq_ok_iff (follow : Reference → Value → Path → Check Unit Value) (es : Entries Value)
    (path : Path) (hp : PropertyCompiles nsid strict body e p) (q : Option (String × Value)) :
    Schema.part follow es path p.property.name p.schema = .ok q ↔
      Puts (fun x y => ∃ compiled, (e.2.compile nsid strict).outcome = .ok compiled ∧
        (compiled.schema.checkWith follow x (path ++ [.key e.1])).outcome = .ok y)
        body es e.1 e.2 q := by
  obtain ⟨compiled, hcompiled, rfl⟩ := hp
  obtain ⟨hdefault, optional⟩ := (Field.compiles_of_outcome hcompiled).marks
  change Schema.part follow es path e.1 _ = _ ↔ _
  unfold Schema.part
  rw [CompiledProperty.default?_of, hdefault, CompiledProperty.isRequired_of optional]
  constructor
  · intro h
    split at h
    · next x given =>
      obtain ⟨y, hy, rfl⟩ := Except.map_eq_ok_iff.mp h
      rw [CompiledProperty.checkWith_of] at hy
      split_ifs at hy with hnull
      · obtain ⟨nullable, rfl⟩ := null_and_mayBeNull_iff.mp hnull
        obtain rfl := Except.ok.inj hy
        exact .null given nullable
      · refine .value given (fun hx nullable => hnull ?_) ⟨compiled, hcompiled, hy⟩
        exact null_and_mayBeNull_iff.mpr ⟨nullable, hx⟩
    · next absent =>
      split at h
      · next value default =>
        obtain rfl := Except.ok.inj h
        exact .default absent default
      · next default =>
        split_ifs at h with hmust
        obtain rfl := Except.ok.inj h
        rw [mustBePresent_eq_true_iff, not_or] at hmust
        exact .nothing absent default hmust.1 hmust.2
  · intro h
    cases h with
    | null given nullable =>
      rw [given]
      simp only [CompiledProperty.checkWith_of, null_and_mayBeNull_iff.mpr ⟨nullable, rfl⟩, if_true]
      rfl
    | @value x y given proper accepted =>
      obtain ⟨compiled', hcompiled', hy⟩ := accepted
      obtain rfl := Except.ok.inj (hcompiled.symm.trans hcompiled')
      rw [given]
      have hnull : ¬ (mayBeNull body e.1 && x.isNull) = true := fun h =>
        proper (null_and_mayBeNull_iff.mp h).2 (null_and_mayBeNull_iff.mp h).1
      simp only [CompiledProperty.checkWith_of, if_neg hnull, hy, Except.ok_map]
    | default absent default => rw [absent, default]; rfl
    | nothing absent default required type =>
      have hmust : ¬ mustBePresent body e.1 = true := by
        rw [mustBePresent_eq_true_iff, not_or]
        exact ⟨required, type⟩
      rw [absent, default, if_neg hmust]
      rfl

end Property

theorem Puts.imp {accepts accepts' : Value → Value → Prop} {body : ObjectBody} {es : Entries Value}
    {name : String} {field : Field} {q : Option (String × Value)}
    (himp : ∀ x y, es.find? name = some x → accepts x y → accepts' x y)
    (h : Puts accepts body es name field q) : Puts accepts' body es name field q := by
  cases h with
  | null given nullable => exact .null given nullable
  | value given proper accepted => exact .value given proper (himp _ _ given accepted)
  | default absent default => exact .default absent default
  | nothing absent default required type => exact .nothing absent default required type

/-! ### The whole object -/

/-- What the check of a whole object by its compiled schema gives. -/
theorem checkWith_eq_ok_iff {nsid key className : String} {strict : Bool} {body : ObjectBody}
    {typeName : Option String} {brand : Entries Field} {compiled : List CompiledProperty}
    {recordType : RecordType} {c : CompiledDefinition}
    (hc : ObjectCompiles nsid key className strict body typeName brand compiled recordType c)
    (follow : Reference → Value → Path → Check Unit Value) (v : Value) (path : Path) {n : Value} :
    (c.schema.checkWith follow v path).outcome = .ok n ↔ ∃ es parts, v = .object es ∧
      List.Forall₂ (fun e => Puts (fun x y => ∃ compiled,
        (e.2.compile nsid strict).outcome = .ok compiled ∧
          (compiled.schema.checkWith follow x (path ++ [.key e.1])).outcome = .ok y)
        body es e.1 e.2) (body.properties.merge brand) parts ∧
      n = .object (parts.filterMap id ++
        es.filter fun e => !(body.properties.merge brand).has e.1) := by
  have keys : Entries.keys (compiled.map fun p => (p.property.name, p.schema)) =
      Entries.keys (body.properties.merge brand) := by
    rw [← hc.names, Entries.keys, List.map_map]
    rfl
  have others (es : Entries Value) :
      Schema.undeclared (compiled.map fun p => (p.property.name, p.schema)) es =
        es.filter fun e => !(body.properties.merge brand).has e.1 := by
    refine List.filter_congr fun e _ => ?_
    rw [Bool.not_inj_iff, Bool.eq_iff_iff, Entries.has_eq_true_iff, Entries.has_eq_true_iff, keys]
  have puts (es : Entries Value) (parts : List (Option (String × Value))) :=
    hc.properties.congr_left (fun _ _ => part_eq_ok_iff follow es path) parts
  rw [hc.schema_eq, Schema.outcome_fields_eq_ok_iff]
  simp only [others, List.forall₂_map_left_iff]
  constructor
  · rintro ⟨es, parts, rfl, hparts, rfl⟩
    exact ⟨es, parts, rfl, (puts es parts).mp hparts, rfl⟩
  · rintro ⟨es, parts, rfl, hparts, rfl⟩
    exact ⟨es, parts, rfl, (puts es parts).mpr hparts, rfl⟩

/-! ### Verdicts on objects -/

/-- Whether a property of an object is in order: a value that is present is null and may be, or is
accepted; a value that is absent has a default, or need not be present. -/
def Admits (accepts : Value → Value → Prop) (body : ObjectBody) (es : Entries Value)
    (name : String) (field : Field) : Prop :=
  match es.find? name with
  | some x => (x = .null ∧ .str name ∈ body.nullable) ∨ ∃ y, accepts x y
  | none => field.default? ≠ none ∨ (.str name ∉ body.required ∧ name ≠ Naming.typeKey)

theorem admits_iff_exists_puts {accepts : Value → Value → Prop} {body : ObjectBody}
    {es : Entries Value} {name : String} {field : Field} :
    Admits accepts body es name field ↔ ∃ q, Puts accepts body es name field q := by
  unfold Admits
  constructor
  · intro h
    split at h
    · next x given =>
      by_cases hnull : x = .null ∧ .str name ∈ body.nullable
      · exact ⟨_, .null (hnull.1 ▸ given) hnull.2⟩
      · obtain ⟨y, accepted⟩ := h.resolve_left hnull
        exact ⟨_, .value given (fun hx nullable => hnull ⟨hx, nullable⟩) accepted⟩
    · next absent =>
      cases default : field.default? with
      | some value => exact ⟨_, .default absent default⟩
      | none =>
        obtain ⟨required, type⟩ := h.resolve_left (fun h => h default)
        exact ⟨_, .nothing absent default required type⟩
  · rintro ⟨q, h⟩
    cases h with
    | null given nullable => rw [given]; exact .inl ⟨rfl, nullable⟩
    | value given proper accepted => rw [given]; exact .inr ⟨_, accepted⟩
    | default absent default => rw [absent]; exact .inl (by simp [default])
    | nothing absent default required type => rw [absent]; exact .inr ⟨required, type⟩

/-- The type that the object of a record names: none, that of the record, or null where this may
be. -/
def NamesType (nsid key : String) (es : Entries Value) : Definition → Prop
  | .record body _ _ =>
    es.find? Naming.typeKey = none ∨
      es.find? Naming.typeKey = some (.str (Reference.text ⟨nsid, key⟩)) ∨
      (es.find? Naming.typeKey = some .null ∧ .str Naming.typeKey ∈ body.nullable)
  | _ => True

/-- What the validator of a field makes of a value in a registry. -/
def judged (env : Surroundings) (s : Store) (nsid : String) (strict : Bool) (f : Field)
    (x : Value) : Except Fault Schema.Verdict := do
  let compiled ← (f.compile nsid strict).outcome
  ((Registry.verdict env compiled.schema x).run s).1

theorem judged_eq_accepted_iff {env : Surroundings} {s : Store} {nsid : String} {strict : Bool}
    {f : Field} {x y : Value} :
    judged env s nsid strict f x = .ok (.ok y) ↔
      ∃ compiled, (f.compile nsid strict).outcome = .ok compiled ∧
        s.registry.normalized env compiled.schema x [] = .ok y := by
  simp only [judged, Except.bind_eq_ok_iff, Registry.fst_run_verdict,
    Registry.verdictOf_eq_accepted_iff]

theorem compile_brandField (typeName nsid : String) (strict : Bool) :
    ((brandField typeName).compile nsid strict).outcome =
      .ok ⟨.withDefault (.literal (.str typeName)) (.str typeName), .string .null []⟩ := by
  rfl

theorem identical_str_eq_true_iff {x : Value} {t : String} :
    x.identical (.str t) = true ↔ x = .str t := by
  cases x <;> simp [Value.identical, Value.same]

theorem namesType_of_admits {env : Surroundings} {s : Store} {nsid key : String} {strict : Bool}
    {d : Definition} {body : ObjectBody} (hbody : d.body? = some body) {es : Entries Value}
    (h : ∀ e ∈ d.declared nsid key,
      Admits (fun x y => judged env s nsid strict e.2 x = .ok (.ok y)) body es e.1 e.2) :
    NamesType nsid key es d := by
  cases d with
  | record body' rkey description =>
    obtain rfl := Option.some.inj hbody
    have brand : (Naming.typeKey, brandField (Reference.text ⟨nsid, key⟩)) ∈
        Definition.declared nsid key (.record body' rkey description) :=
      Entries.mem_of_find?_eq_some (by simp [declared, Entries.merge, Entries.find?_insert])
    have type := h _ brand
    unfold Admits at type
    split at type
    · next x given =>
      rcases type with ⟨rfl, nullable⟩ | ⟨y, accepted⟩
      · exact .inr (.inr ⟨given, nullable⟩)
      · refine .inr (.inl ?_)
        rw [given]
        obtain ⟨compiled, hcompiled, hy⟩ := judged_eq_accepted_iff.mp accepted
        obtain rfl := Except.ok.inj ((compile_brandField _ nsid strict).symm.trans hcompiled)
        simp only [Registry.normalized, Schema.checkWith] at hy
        split at hy
        · next same => rw [identical_str_eq_true_iff.mp same]
        · simp [Check.fail] at hy
    · next absent => exact .inl absent
  | _ => trivial

section Verdict

variable {nsid key className : String} {strict : Bool} {body : ObjectBody}
  {typeName : Option String} {brand : Entries Field} {compiled : List CompiledProperty}
  {recordType : RecordType} {c : CompiledDefinition}

theorem normalized_eq_ok_iff
    (hc : ObjectCompiles nsid key className strict body typeName brand compiled recordType c)
    (env : Surroundings) (s : Store) {v n : Value} :
    s.registry.normalized env c.schema v [] = .ok n ↔ ∃ es parts, v = .object es ∧
      List.Forall₂ (fun e => Puts (fun x y => judged env s nsid strict e.2 x = .ok (.ok y))
        body es e.1 e.2) (body.properties.merge brand) parts ∧
      n = .object (parts.filterMap id ++
        es.filter fun e => !(body.properties.merge brand).has e.1) := by
  rw [Registry.normalized, checkWith_eq_ok_iff hc]
  refine exists_congr fun es => exists_congr fun parts => and_congr_right ?_
  rintro rfl
  -- a value of a property is less deep than the object and is judged at another path
  have alone (e : String × Field) (x y : Value) (given : Entries.find? es e.1 = some x) :
      (∃ compiled, (e.2.compile nsid strict).outcome = .ok compiled ∧
        (compiled.schema.checkWith ((s.registry.meaning env).follow
          (s.registry.stepBound env (.object es))) x ([] ++ [.key e.1])).outcome = .ok y) ↔
      judged env s nsid strict e.2 x = .ok (.ok y) := by
    have depth : x.depth ≤ (Value.object es).depth := (Value.depth_lt_of_found given).le
    rw [judged_eq_accepted_iff]
    refine exists_congr fun compiled => and_congr_right fun _ => ?_
    rw [← Registry.normalized_eq env (s.registry.stepBound_mono env depth)]
    exact (Registry.alike_normalized env _ _ _ _ _).ok_iff y
  refine and_congr_left fun _ => ⟨fun h => h.imp ?_, fun h => h.imp ?_⟩
  · exact fun e q => Puts.imp fun x y given => (alone e x y given).mp
  · exact fun e q => Puts.imp fun x y given => (alone e x y given).mpr

/-- A check of an object ends with a result or a failure if the check of each value of a property
does. -/
theorem settled_normalized
    (hc : ObjectCompiles nsid key className strict body typeName brand compiled recordType c)
    (env : Surroundings) (s : Store) {v : Value}
    (h : ∀ es, v = .object es → ∀ e ∈ body.properties.merge brand, ∀ x,
      Entries.find? es e.1 = some x → ∃ verdict, judged env s nsid strict e.2 x = .ok verdict) :
    Registry.Settled (s.registry.normalized env c.schema v []) := by
  rw [Registry.normalized, hc.schema_eq]
  cases v with
  | object es =>
    rw [Schema.outcome_fields]
    refine Registry.Settled.map (Registry.Settled.mapM fun q hq => ?_)
    obtain ⟨p, hp, rfl⟩ := List.mem_map.mp hq
    obtain ⟨e, he, compiled, hcompiled, rfl⟩ := hc.properties.exists_left hp
    change Registry.Settled (Schema.part _ es [] e.1 _)
    unfold Schema.part
    split
    · next x given =>
      refine Registry.Settled.map ?_
      rw [CompiledProperty.checkWith_of]
      split_ifs
      · exact fun _ h => by simp at h
      · have depth : x.depth ≤ (Value.object es).depth := (Value.depth_lt_of_found given).le
        rw [← Registry.normalized_eq env (s.registry.stepBound_mono env depth)]
        refine Registry.Settled.alike (Registry.alike_normalized env _ _ _ [] _) ?_
        obtain ⟨verdict, hverdict⟩ := h es rfl e he x given
        rw [judged, hcompiled, Except.ok_bind, Registry.fst_run_verdict] at hverdict
        exact Registry.settled_iff_exists_verdictOf.mpr ⟨verdict, hverdict⟩
    · split
      · exact fun _ h => by simp [Except.pure_eq_ok] at h
      · split_ifs
        · exact fun _ h => ⟨_, (Except.error.inj h).symm⟩
        · exact fun _ h => by simp [Except.pure_eq_ok] at h
  | _ => exact fun _ h => ⟨_, (Except.error.inj h).symm⟩

end Verdict

/-- A record or an object that compiles has one compiled definition. In any registry this accepts a
value exactly if the value is an object, each declared property is in order and, for a record, the
object names no other type; the result holds what the declared properties put there, in their order,
and then the undeclared entries as they are. The check ends with a result or a failure wherever the
checks of the single values do. -/
theorem verdict_compile {nsid key className : String} {strict : Bool} {d : Definition}
    {body : ObjectBody} {cs : List CompiledDefinition} (hbody : d.body? = some body)
    (hcs : (d.compile nsid key className strict).outcome = .ok cs) (env : Surroundings) (s : Store)
    (v : Value) :
    ∃ c, cs = [c] ∧
      ((∃ n, ((Registry.verdict env c.schema v).run s).1 = .ok (.ok n)) ↔
        ∃ es, v = .object es ∧ NamesType nsid key es d ∧
          ∀ e ∈ d.declared nsid key,
            Admits (fun x y => judged env s nsid strict e.2 x = .ok (.ok y)) body es e.1 e.2) ∧
      (∀ n, ((Registry.verdict env c.schema v).run s).1 = .ok (.ok n) →
        ∃ es parts, v = .object es ∧
          List.Forall₂ (fun e => Puts (fun x y => judged env s nsid strict e.2 x = .ok (.ok y))
            body es e.1 e.2) (d.declared nsid key) parts ∧
          n = .object (parts.filterMap id ++ es.filter fun e => !(d.declared nsid key).has e.1)) ∧
      ((∀ es, v = .object es → ∀ e ∈ d.declared nsid key, ∀ x, Entries.find? es e.1 = some x →
          ∃ verdict, judged env s nsid strict e.2 x = .ok verdict) →
        ∃ verdict, ((Registry.verdict env c.schema v).run s).1 = .ok verdict) := by
  obtain ⟨typeName, brand, compiled, recordType, c, rfl, hdeclared, hc⟩ :=
    exists_objectCompiles hbody hcs
  have accepted (n : Value) := normalized_eq_ok_iff hc env s (v := v) (n := n)
  refine ⟨c, rfl, ?_, fun n hn => ?_, fun h => ?_⟩
  · simp only [Registry.fst_run_verdict, Registry.verdictOf_eq_accepted_iff, accepted, hdeclared]
    constructor
    · rintro ⟨n, es, parts, rfl, hparts, -⟩
      have admitted : ∀ e ∈ d.declared nsid key,
          Admits (fun x y => judged env s nsid strict e.2 x = .ok (.ok y)) body es e.1 e.2 := by
        intro e he
        obtain ⟨q, _, hq⟩ := hparts.exists_right he
        exact admits_iff_exists_puts.mpr ⟨q, hq⟩
      exact ⟨es, rfl, namesType_of_admits hbody admitted, admitted⟩
    · rintro ⟨es, rfl, -, admitted⟩
      obtain ⟨parts, hparts⟩ := List.exists_forall₂ fun e he =>
        admits_iff_exists_puts.mp (admitted e he)
      exact ⟨_, es, parts, rfl, hparts, rfl⟩
  · rw [Registry.fst_run_verdict, Registry.verdictOf_eq_accepted_iff, accepted, hdeclared] at hn
    exact hn
  · rw [Registry.fst_run_verdict]
    exact Registry.settled_iff_exists_verdictOf.mp (settled_normalized hc env s (hdeclared ▸ h))

/-- Where a record lists its type among the properties that may be null, an object that names no
type but null is accepted. -/
theorem accepts_null_type :
    ∃ c, ((Definition.record { properties := [], nullable := [.str "$type"] } .null .null).compile
        "com.example.thing" "main" "Thing" false).outcome = .ok [c] ∧
      ((Registry.verdict {} c.schema (.object [("$type", .null)])).run
        ⟨{ id := 0, sources := [], strict := some false }, []⟩).1 =
          .ok (.ok (.object [("$type", .null)])) ∧
      ¬(Entries.find? [("$type", Value.null)] "$type" = none ∨
        Entries.find? [("$type", Value.null)] "$type" = some (.str "com.example.thing")) := by
  obtain ⟨cs, hcs⟩ : ∃ cs, ((Definition.record { properties := [], nullable := [.str "$type"] }
      .null .null).compile "com.example.thing" "main" "Thing" false).outcome = .ok cs := ⟨_, rfl⟩
  obtain ⟨_, _, _, _, c, rfl, hdeclared, hc⟩ := exists_objectCompiles rfl hcs
  refine ⟨c, hcs, ?_, by simp [Entries.find?]⟩
  rw [Registry.fst_run_verdict, Registry.verdictOf_eq_accepted_iff, normalized_eq_ok_iff hc,
    hdeclared]
  exact ⟨_, [some ("$type", .null)], rfl, .cons (.null rfl (by simp [Naming.typeKey])) .nil, rfl⟩

/-- A record with one truth value that must be given accepts an object that gives it. -/
theorem verdict_compile_boolean :
    ∃ c n, ((Definition.record ⟨[("done", { type := .str "boolean" })], [.str "done"], [], .null⟩
        .null .null).compile "com.example.task" "main" "Task" false).outcome = .ok [c] ∧
      ((Registry.verdict {} c.schema (.object [("done", .bool true)])).run
        ⟨{ id := 0, sources := [], strict := some false }, []⟩).1 = .ok (.ok n) := by
  obtain ⟨cs, hcs⟩ : ∃ cs, ((Definition.record ⟨[("done", { type := .str "boolean" })],
    [.str "done"], [], .null⟩ .null .null).compile "com.example.task" "main" "Task"
      false).outcome = .ok cs := Except.exists_of_isOk (by decide +kernel)
  obtain ⟨c, rfl, accepts, -⟩ := verdict_compile rfl hcs {}
    ⟨{ id := 0, sources := [], strict := some false }, []⟩ (.object [("done", .bool true)])
  have accepted := accepts.mpr (by
    refine ⟨_, rfl, .inl rfl, fun e he => ?_⟩
    rcases List.mem_cons.mp he with rfl | he
    · exact .inr ⟨.bool true, judged_eq_accepted_iff.mpr ⟨_, rfl, rfl⟩⟩
    · obtain rfl := List.mem_singleton.mp he
      refine .inl ?_
      rw [← (Field.compiles_of_outcome (compile_brandField _ "" false)).marks.1]
      simp [Schema.default?])
  obtain ⟨n, hn⟩ := accepted
  exact ⟨c, n, hcs, hn⟩

end Definition

end Lexicon
