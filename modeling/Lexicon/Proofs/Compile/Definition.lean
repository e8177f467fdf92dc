import Lexicon.Compile.Bundle
import Lexicon.Proofs.Outcome
import Mathlib.Tactic.SplitIfs

/-!
# What compiled definitions come from

A compiled definition goes back to a definition of its document: its own, or that of the call that
it is a part of. Main statements: the properties, the schema and the record type of an object that
compiles, and the origin of every compiled definition of a document.
-/

namespace Lexicon

namespace Definition

theorem any_same_eq_true_iff {values : List Value} {name : String} :
    values.any (Value.same (.str name)) = true ↔ .str name ∈ values := by
  rw [List.any_eq_true]
  constructor
  · rintro ⟨v, hv, h⟩
    cases v with
    | str s =>
      simp only [Value.same, beq_iff_eq] at h
      exact h ▸ hv
    | _ => simp [Value.same, Value.sameNumber, Value.number?] at h
  · intro h
    exact ⟨_, h, by simp [Value.same]⟩

/-- Whether a property of an object must be present. -/
def mustBePresent (body : ObjectBody) (name : String) : Bool :=
  body.required.any (Value.same (.str name)) || name == Naming.typeKey

/-- Whether a property of an object may be null. -/
def mayBeNull (body : ObjectBody) (name : String) : Bool :=
  body.nullable.any (Value.same (.str name))

theorem mustBePresent_eq_true_iff {body : ObjectBody} {name : String} :
    mustBePresent body name = true ↔ .str name ∈ body.required ∨ name = Naming.typeKey := by
  rw [mustBePresent, Bool.or_eq_true, any_same_eq_true_iff, beq_iff_eq]

theorem mayBeNull_eq_true_iff {body : ObjectBody} {name : String} :
    mayBeNull body name = true ↔ .str name ∈ body.nullable :=
  any_same_eq_true_iff

/-- A property that compiles is its field with the marks of the object around it. -/
def PropertyCompiles (nsid : String) (strict : Bool) (body : ObjectBody) (e : String × Field)
    (p : CompiledProperty) : Prop :=
  ∃ compiled, (e.2.compile nsid strict).outcome = .ok compiled ∧
    p = .of e.1 e.2 compiled (mustBePresent body e.1) (mayBeNull body e.1)

theorem propertyCompiles_of_outcome {nsid : String} {strict : Bool} {body : ObjectBody}
    {e : String × Field} {p : CompiledProperty}
    (h : (compileProperty nsid strict body e.1 e.2).outcome = .ok p) :
    PropertyCompiles nsid strict body e p := by
  simp only [compileProperty, Traced.outcome_bind_eq_ok_iff, Traced.outcome_pure,
    Except.ok.injEq] at h
  obtain ⟨compiled, hfield, rfl⟩ := h
  exact ⟨compiled, hfield, rfl⟩

/-- What an object that compiles consists of: its properties in order, the schema and the type that
they make, and the record type of their slots. -/
structure ObjectCompiles (nsid key className : String) (strict : Bool) (body : ObjectBody)
    (typeName : Option String) (brand : Entries Field) (compiled : List CompiledProperty)
    (recordType : RecordType) (c : CompiledDefinition) : Prop where
  required_declared : ∀ name ∈ body.required,
    checkDeclared nsid key "required" (body.properties.merge brand) name = .ok ()
  nullable_declared : ∀ name ∈ body.nullable,
    checkDeclared nsid key "nullable" (body.properties.merge brand) name = .ok ()
  properties :
    List.Forall₂ (PropertyCompiles nsid strict body) (body.properties.merge brand) compiled
  build : RecordType.build className nsid key (compiled.map (·.rule)) typeName = .ok recordType
  nsid_eq : c.nsid = nsid
  key_eq : c.key = key
  schema_eq : c.schema = .fields (compiled.map fun p => (p.property.name, p.schema))
  type_eq : c.type = .object (compiled.map (·.property))
  recordType_eq : c.recordType = some recordType

theorem objectCompiles_of_outcome {nsid key className : String} {strict : Bool} {body : ObjectBody}
    {typeName : Option String} {brand : Entries Field} {description : Value}
    {c : CompiledDefinition}
    (h : (compileObject nsid key className strict body typeName brand description).outcome =
      .ok c) :
    ∃ compiled recordType,
      ObjectCompiles nsid key className strict body typeName brand compiled recordType c := by
  simp only [compileObject, Traced.outcome_bind_eq_ok_iff, Traced.outcome_pure,
    Traced.outcome_forM, Traced.outcome_mapM, Traced.outcome_lift, Except.mapM_eq_ok_iff,
    Except.ok.injEq] at h
  obtain ⟨_, hrequired, _, hnullable, compiled, hcompiled, recordType, hbuild, rfl⟩ := h
  exact ⟨compiled, recordType, Except.forM_eq_ok_iff.mp hrequired,
    Except.forM_eq_ok_iff.mp hnullable,
    hcompiled.imp fun _ _ h => propertyCompiles_of_outcome h, hbuild, rfl, rfl, rfl, rfl, rfl⟩

theorem ObjectCompiles.names {nsid key className : String} {strict : Bool} {body : ObjectBody}
    {typeName : Option String} {brand : Entries Field} {compiled : List CompiledProperty}
    {recordType : RecordType} {c : CompiledDefinition}
    (h : ObjectCompiles nsid key className strict body typeName brand compiled recordType c) :
    compiled.map (·.property.name) = (body.properties.merge brand).keys := by
  refine List.forall₂_eq_eq_eq ▸ ?_
  rw [Entries.keys, List.forall₂_map_left_iff, List.forall₂_map_right_iff]
  refine h.properties.flip.imp ?_
  rintro p e ⟨_, _, rfl⟩
  rfl

/-- A field of a call refers to a part of the call, or stands for an input without a schema. -/
theorem mem_callFields {nsid : String} {d : Definition} {call : Call} {partKeys : List String}
    {p : CompiledProperty} (h : p ∈ callFields nsid d call partKeys) :
    (∃ key ∈ ["params", "input"], ∃ required, p = partField nsid key required) ∨
      p = rawInputField := by
  simp only [callFields, List.mem_append] at h
  rcases h with h | h
  · split_ifs at h
    · exact .inl ⟨"params", by simp, _, List.mem_singleton.mp h⟩
    · simp at h
  · split_ifs at h
    · exact .inl ⟨"input", by simp, _, List.mem_singleton.mp h⟩
    · exact .inr (List.mem_singleton.mp h)
    · simp at h

/-! ### Components -/

/-- What a compiled definition is made from: an object, with the name that its records hold as
their type and the property that fixes it; the fields of a call; a token; or a field. -/
inductive Component
  | object (body : ObjectBody) (typeName : Option String) (brand : Entries Field)
  | call (fields : List CompiledProperty)
  | token
  | field (f : Field)

/-- What a part of a call is made from. -/
def Component.ofPart : BodySchema → Component
  | .object body => .object body none []
  | .field f => .field f

/-- What a definition is made into, by the keys of the compiled definitions. -/
def components (nsid key : String) (d : Definition) : List (String × Component) :=
  let typeName := Reference.text ⟨nsid, key⟩
  match d with
  | .record body _ _ =>
    [(key, .object body (some typeName) [(Naming.typeKey, brandField typeName)])]
  | .object body => [(key, .object body (some typeName) [])]
  | .query call _ | .procedure call _ _ | .subscription call _ =>
    let parts := d.parts call
    (key, .call (callFields nsid d call (parts.map (·.1)))) ::
      parts.map fun p => (p.1, Component.ofPart p.2.1)
  | .token _ => [(key, .token)]
  | .field f => [(key, .field f)]

/-- A compiled definition is made from a component. -/
inductive Component.Compiles (nsid key : String) (strict : Bool) :
    Component → CompiledDefinition → Prop
  | object {body : ObjectBody} {typeName : Option String} {brand : Entries Field}
      {className : String} {compiled : List CompiledProperty} {recordType : RecordType}
      {c : CompiledDefinition}
      (h : ObjectCompiles nsid key className strict body typeName brand compiled recordType c) :
      Compiles nsid key strict (.object body typeName brand) c
  | call {fields : List CompiledProperty} {className : String} {recordType : RecordType}
      {description : Value}
      (build : RecordType.build className nsid key (fields.map (·.rule)) none = .ok recordType) :
      Compiles nsid key strict (.call fields)
        { nsid, key
          schema := .fields (fields.map fun p => (p.property.name, p.schema))
          type := .object (fields.map (·.property))
          recordType := some recordType
          description }
  | token {name : String} {description : Value} :
      Compiles nsid key strict .token
        { nsid, key, schema := .text, type := .token name, description }
  | field {f : Field} {compiled : CompiledField} {description : Value}
      (h : (f.compile nsid strict).outcome = .ok compiled) :
      Compiles nsid key strict (.field f)
        { nsid, key, schema := compiled.schema, type := .field compiled.type, description }

theorem Component.Compiles.key_eq {nsid key : String} {strict : Bool} {component : Component}
    {c : CompiledDefinition} (h : component.Compiles nsid key strict c) : c.key = key := by
  cases h with
  | object h => exact h.key_eq
  | _ => rfl

theorem Component.Compiles.nsid_eq {nsid key : String} {strict : Bool} {component : Component}
    {c : CompiledDefinition} (h : component.Compiles nsid key strict c) : c.nsid = nsid := by
  cases h with
  | object h => exact h.nsid_eq
  | _ => rfl

theorem compiles_of_outcome_compilePart {nsid key : String} {strict : Bool} {schema : BodySchema}
    {description : Value} {c : CompiledDefinition}
    (h : (compilePart nsid key strict schema description).outcome = .ok c) :
    (Component.ofPart schema).Compiles nsid key strict c := by
  cases schema with
  | object body =>
    obtain ⟨_, _, hc⟩ := objectCompiles_of_outcome h
    exact .object hc
  | field f =>
    simp only [compilePart, Traced.outcome_bind_eq_ok_iff, Traced.outcome_pure,
      Except.ok.injEq] at h
    obtain ⟨compiled, hcompiled, rfl⟩ := h
    exact .field hcompiled

/-- A definition that compiles gives one compiled definition for each of its components. -/
theorem compiles_of_outcome {nsid key className : String} {strict : Bool} {d : Definition}
    {cs : List CompiledDefinition}
    (h : (d.compile nsid key className strict).outcome = .ok cs) :
    List.Forall₂ (fun e c => e.2.Compiles nsid e.1 strict c) (d.components nsid key) cs := by
  have of_call (call : Call)
      (h : (compileCall nsid key className strict d call).outcome = .ok cs) :
      List.Forall₂ (fun e c => e.2.Compiles nsid e.1 strict c)
        ((key, .call (callFields nsid d call ((d.parts call).map (·.1)))) ::
          (d.parts call).map fun p => (p.1, Component.ofPart p.2.1)) cs := by
    simp only [compileCall, Traced.outcome_bind_eq_ok_iff, Traced.outcome_pure,
      Traced.outcome_mapM, Traced.outcome_lift, Except.mapM_eq_ok_iff, Except.ok.injEq] at h
    obtain ⟨compiled, hparts, _, hbuild, rfl⟩ := h
    refine .cons (.call hbuild) ?_
    rw [List.forall₂_map_left_iff]
    exact hparts.imp fun _ _ h => compiles_of_outcome_compilePart h
  cases d with
  | record body rkey description =>
    simp only [compile, Traced.outcome_bind_eq_ok_iff, Traced.outcome_pure, Except.ok.injEq] at h
    obtain ⟨c, hc, rfl⟩ := h
    obtain ⟨_, _, hc⟩ := objectCompiles_of_outcome hc
    exact .cons (.object hc) .nil
  | object body =>
    simp only [compile, Traced.outcome_bind_eq_ok_iff, Traced.outcome_pure, Except.ok.injEq] at h
    obtain ⟨c, hc, rfl⟩ := h
    obtain ⟨_, _, hc⟩ := objectCompiles_of_outcome hc
    exact .cons (.object hc) .nil
  | query call output => exact of_call call h
  | procedure call input output => exact of_call call h
  | subscription call message => exact of_call call h
  | token description =>
    simp only [compile, Traced.outcome_pure, Except.ok.injEq] at h
    exact h ▸ .cons .token .nil
  | field f =>
    simp only [compile, Traced.outcome_bind_eq_ok_iff, Traced.outcome_pure, Except.ok.injEq] at h
    obtain ⟨compiled, hcompiled, rfl⟩ := h
    exact .cons (.field hcompiled) .nil

theorem key_mem_partKeys {d : Definition} {call : Call} {part : String × BodySchema × Value}
    (h : part ∈ d.parts call) : part.1 ∈ Document.partKeys := by
  simp only [parts, List.mem_append, Option.mem_toList, Option.map_eq_some_iff,
    List.mem_filterMap, Option.bind_eq_some_iff] at h
  rcases h with ⟨_, _, rfl⟩ | ⟨b, hb, _, _, _, _, rfl⟩
  · simp [Document.partKeys]
  · cases d <;> simp only [bodies, List.mem_cons, List.not_mem_nil, or_false] at hb
    · subst hb; simp [Document.partKeys]
    · rcases hb with rfl | rfl <;> simp [Document.partKeys]
    · subst hb; simp [Document.partKeys]

/-- The components of a definition stand under its own key and the keys of parts of calls. -/
theorem key_of_mem_components {nsid key : String} {d : Definition} {e : String × Component}
    (h : e ∈ d.components nsid key) : e.1 = key ∨ e.1 ∈ Document.partKeys := by
  have of_call {call : Call} {component : Component}
      (h : e ∈ (key, component) :: (d.parts call).map fun p => (p.1, Component.ofPart p.2.1)) :
      e.1 = key ∨ e.1 ∈ Document.partKeys := by
    rcases List.mem_cons.mp h with rfl | h
    · exact .inl rfl
    · obtain ⟨part, hpart, rfl⟩ := List.mem_map.mp h
      exact .inr (key_mem_partKeys hpart)
  cases d with
  | query | procedure | subscription => exact of_call h
  | _ =>
    simp only [components, List.mem_singleton] at h
    exact .inl (by rw [h])

end Definition

/-! ### Names that clash -/

theorem RecordType.faultsAre_checkAttributes (nsid name : String) (seen : Entries String)
    (slots : List Slot) : FaultsAre Fault.IsCompile (checkAttributes nsid name seen slots) := by
  induction slots generalizing seen with
  | nil => exact .ok _
  | cons slot rest ih =>
    unfold checkAttributes
    split_ifs
    · exact FaultsAre.compile _
    · split
      · exact FaultsAre.compile _
      · exact ih _

namespace Document

theorem faultsAre_addCompiled (id name : String) (done : Entries CompiledDefinition)
    (cs : List CompiledDefinition) : FaultsAre Fault.IsCompile (addCompiled id name done cs) := by
  induction cs generalizing done with
  | nil => exact .ok _
  | cons c rest ih =>
    unfold addCompiled
    split_ifs
    · exact FaultsAre.compile _
    · exact ih _

theorem faultsAre_checkClassNames (d : Document) (seen : Entries String) (keys : List String) :
    FaultsAre Fault.IsCompile (d.checkClassNames seen keys) := by
  induction keys generalizing seen with
  | nil => exact .ok _
  | cons key rest ih =>
    unfold checkClassNames
    dsimp only
    split
    · exact FaultsAre.compile _
    · exact ih _

/-- What the compiled definitions of a document are made from, by their keys. -/
def components (d : Document) : List (String × Definition.Component) :=
  d.definitions.flatMap fun e => e.2.components d.id e.1

private theorem addCompiled_eq_ok {id name : String} {done result : Entries CompiledDefinition}
    {cs : List CompiledDefinition} (h : addCompiled id name done cs = .ok result) :
    result = done ++ cs.map (fun c => (c.key, c)) ∧ (done.keys.Nodup → result.keys.Nodup) := by
  induction cs generalizing done with
  | nil =>
    obtain rfl : done = result := Except.ok.inj h
    simp
  | cons c rest ih =>
    simp only [addCompiled] at h
    split at h
    · simp at h
    · next fresh =>
      obtain ⟨rfl, hkeys⟩ := ih h
      refine ⟨by simp, fun hdone => hkeys ?_⟩
      simp only [Entries.keys, List.map_append, List.map_cons, List.map_nil]
      refine List.nodup_append.mpr ⟨hdone, by simp, ?_⟩
      rintro k hk _ hk' rfl
      rw [List.mem_singleton.mp hk'] at hk
      exact fresh (Entries.has_eq_true_iff.mpr hk)

private theorem compileDefinitions_eq_ok {d : Document} {strict : Bool}
    {done result : Entries CompiledDefinition} {definitions : Entries Definition}
    (h : (d.compileDefinitions strict done definitions).outcome = .ok result) :
    (∃ made, List.Forall₂ (fun e cs =>
        (e.2.compile d.id e.1 (d.classNameOf e.1) strict).outcome = .ok cs) definitions made ∧
      result = done ++ made.flatten.map fun c => (c.key, c)) ∧
      (done.keys.Nodup → result.keys.Nodup) := by
  induction definitions generalizing done with
  | nil =>
    obtain rfl : done = result := Except.ok.inj h
    exact ⟨⟨[], .nil, by simp⟩, fun hdone => hdone⟩
  | cons e rest ih =>
    obtain ⟨name, definition⟩ := e
    simp only [compileDefinitions, Traced.outcome_bind_eq_ok_iff, Traced.outcome_lift] at h
    obtain ⟨cs, hcs, done', hadd, hrest⟩ := h
    obtain ⟨rfl, hkeys⟩ := addCompiled_eq_ok hadd
    obtain ⟨⟨made, hmade, rfl⟩, hkeys'⟩ := ih hrest
    exact ⟨⟨cs :: made, .cons hcs hmade, by simp⟩, fun hdone => hkeys' (hkeys hdone)⟩

/-- A document that compiles has class names that do not clash; it consists of what its definitions
compile to, in order and under distinct keys. -/
theorem compiled_of_outcome {d : Document} {strict : Bool} {result : Entries CompiledDefinition}
    (h : (d.compileAll strict).outcome = .ok result) :
    d.checkClassNames [] d.keysMainLast = .ok () ∧
      (∃ made, List.Forall₂ (fun e cs =>
          (e.2.compile d.id e.1 (d.classNameOf e.1) strict).outcome = .ok cs) d.definitions made ∧
        result = made.flatten.map fun c => (c.key, c)) ∧
      result.keys.Nodup := by
  simp only [compileAll, Traced.outcome_bind_eq_ok_iff, Traced.outcome_lift] at h
  obtain ⟨_, hnames, h⟩ := h
  obtain ⟨hmade, hkeys⟩ := compileDefinitions_eq_ok h
  exact ⟨hnames, hmade, hkeys List.nodup_nil⟩

/-- A document that compiles has one compiled definition for each of its components, in order and
under distinct keys. -/
theorem compiles_of_outcome {d : Document} {strict : Bool} {result : Entries CompiledDefinition}
    (h : (d.compileAll strict).outcome = .ok result) :
    List.Forall₂ (fun e c => c.1 = e.1 ∧ e.2.Compiles d.id e.1 strict c.2) d.components result ∧
      result.keys.Nodup := by
  obtain ⟨-, ⟨made, hmade, rfl⟩, hkeys⟩ := compiled_of_outcome h
  refine ⟨?_, hkeys⟩
  rw [List.forall₂_map_right_iff, components, List.flatMap_def]
  refine List.rel_flatten (List.forall₂_map_left_iff.mpr (hmade.imp fun e cs h => ?_))
  exact (Definition.compiles_of_outcome h).imp fun _ _ h => ⟨h.key_eq, h⟩

end Document

end Lexicon
