import Lexicon.Proofs.Compile.Definition
import Lexicon.Proofs.Compile.Object
import Lexicon.Proofs.Compile.Same
import Lexicon.Proofs.Compile.Strictness

/-!
# Equal documents

Equal documents have components under the same keys, and these are equal one by one, whatever the
order of definitions and properties. Main statement: where equal components list the same values
with their kinds, what one of them compiles to refuses nothing that the other accepts.
-/

namespace Lexicon

open Schema (Upholds UpholdsField)

theorem Entries.agree_iff {α : Type} {equal : α → α → Bool} {xs ys : Entries α} :
    agree equal xs ys = true ↔ xs.length = ys.length ∧
      ∀ e ∈ xs, ∃ y, ys.find? e.1 = some y ∧ equal e.2 y = true := by
  rw [agree, Bool.and_eq_true, beq_iff_eq, List.all_eq_true]
  refine and_congr_right fun _ => forall₂_congr fun e _ => ?_
  cases Entries.find? ys e.1 <;> simp

/-! ### Equal objects -/

/-- Whether properties of two objects under one name list the same values with their kinds. -/
def ObjectBody.keepsKinds (body body' : ObjectBody) : Bool :=
  body.properties.all fun e => (body'.properties.find? e.1).all e.2.keepsKinds

/-- Two objects with properties under the same names, each pair of which says the same, and with the
same names required and nullable. -/
structure ObjectBody.Alike (body body' : ObjectBody) : Prop where
  names : body.properties.keys.Nodup
  names' : body'.properties.keys.Nodup
  properties : ∀ name,
    Option.Rel Field.Alike (body.properties.find? name) (body'.properties.find? name)
  required : ∀ name, .str name ∈ body.required ↔ .str name ∈ body'.required
  nullable : ∀ name, .str name ∈ body.nullable ↔ .str name ∈ body'.nullable

namespace ObjectBody

variable {body body' : ObjectBody}

theorem Alike.symm (h : body.Alike body') : body'.Alike body where
  names := h.names'
  names' := h.names
  properties name := by
    rcases (h.properties name).none_or_some with ⟨hf, hf'⟩ | ⟨f, f', hf, hf', alike⟩
    · rw [hf, hf']
      exact .none
    · rw [hf, hf']
      exact .some alike.symm
  required name := (h.required name).symm
  nullable name := (h.nullable name).symm

theorem mem_iff_of_sameItems {xs ys : List Value} (h : Value.sameItems xs ys = true)
    (name : String) : .str name ∈ xs ↔ .str name ∈ ys := by
  have items := Value.sameItems_iff.mp h
  constructor
  · intro hx
    obtain ⟨y, hy, same⟩ := items.exists_right hx
    rwa [← Value.same_str_iff.mp same]
  · intro hy
    obtain ⟨x, hx, same⟩ := items.exists_left hy
    rwa [← Value.same_of_str_right same]

theorem alike_of_same (h : body.Decoded) (h' : body'.Decoded) (same : body.same body' = true)
    (kinds : body.keepsKinds body' = true) : body.Alike body' := by
  simp only [ObjectBody.same, Bool.and_eq_true] at same
  obtain ⟨⟨⟨properties, required⟩, nullable⟩, -⟩ := same
  obtain ⟨length, found⟩ := Entries.agree_iff.mp properties
  refine ⟨h.names, h'.names, ?_, mem_iff_of_sameItems required, mem_iff_of_sameItems nullable⟩
  intro name
  have related := Entries.rel_find? (R := fun f f' => f.same f' = true) h.names length found name
  rcases related.none_or_some with ⟨hf, hf'⟩ | ⟨f, f', hf, hf', same⟩
  · rw [hf, hf']
    exact .none
  · rw [hf, hf']
    have decoded := h.properties _ (Entries.mem_of_find?_eq_some hf)
    have decoded' := h'.properties _ (Entries.mem_of_find?_eq_some hf')
    have kinds := List.all_eq_true.mp kinds _ (Entries.mem_of_find?_eq_some hf)
    rw [hf', Option.all_some] at kinds
    exact .some (Field.alike_of_same decoded decoded' same kinds)

end ObjectBody

/-! ### Equal components -/

namespace Definition

/-- Whether two components list the same values with their kinds. -/
def Component.keepsKinds : Component → Component → Bool
  | .object body _ _, .object body' _ _ => body.keepsKinds body'
  | .field f, .field f' => f.keepsKinds f'
  | _, _ => true

/-- Two components are equal. -/
inductive Component.Same : Component → Component → Prop
  | object {body body' : ObjectBody} (typeName : Option String) (brand : Entries Field)
      (h : body.same body' = true) :
      Same (.object body typeName brand) (.object body' typeName brand)
  | call (fields : List CompiledProperty) : Same (.call fields) (.call fields)
  | token : Same .token .token
  | field {f f' : Field} (h : f.same f' = true) : Same (.field f) (.field f')

/-- Two components that say the same. -/
inductive Component.Alike : Component → Component → Prop
  | object {body body' : ObjectBody} (typeName : Option String) (brand : Entries Field)
      (h : body.Alike body') : Alike (.object body typeName brand) (.object body' typeName brand)
  | call (fields : List CompiledProperty) : Alike (.call fields) (.call fields)
  | token : Alike .token .token
  | field {f f' : Field} (h : f.Alike f') : Alike (.field f) (.field f')

variable {component component' : Component}

theorem Component.Alike.symm (h : component.Alike component') : component'.Alike component := by
  cases h with
  | object typeName brand h => exact .object typeName brand h.symm
  | call fields => exact .call fields
  | token => exact .token
  | field h => exact .field h.symm

theorem Component.alike_of_same (h : component.Decoded) (h' : component'.Decoded)
    (same : component.Same component') (kinds : component.keepsKinds component' = true) :
    component.Alike component' := by
  cases same with
  | object typeName brand same =>
    exact .object typeName brand (ObjectBody.alike_of_same h h' same kinds)
  | call fields => exact .call fields
  | token => exact .token
  | field same => exact .field (Field.alike_of_same h h' same kinds)

/-! ### Components of equal definitions -/

theorem same_ofPart {b b' : BodySchema} (h : b.same b' = true) :
    (Component.ofPart b).Same (Component.ofPart b') := by
  cases b with
  | object body =>
    cases b' with
    | object body' => exact .object none [] h
    | field => cases h
  | field f =>
    cases b' with
    | object => cases h
    | field f' => exact .field h

/-- The parameters of calls, taken as objects. -/
theorem same_parameters {p p' : Parameters} (h : p.same p' = true) :
    ObjectBody.same
      { properties := p.properties, required := p.required, description := p.description }
      { properties := p'.properties, required := p'.required, description := p'.description } =
        true := by
  simp only [Parameters.same, Bool.and_eq_true] at h
  simp only [ObjectBody.same, Bool.and_eq_true, Value.sameItems]
  exact ⟨⟨h.1, trivial⟩, h.2⟩

/-- The parts of equal calls stand under the same keys and are equal. -/
theorem forall₂_parts {d d' : Definition} {call call' : Call} (same : call.same call' = true)
    (bodies : List.Forall₂ (fun b b' => b.1 = b'.1 ∧ equalOptions Body.same b.2 b'.2 = true)
      d.bodies d'.bodies) :
    List.Forall₂ (fun p p' => p.1 = p'.1 ∧ (Component.ofPart p.2.1).Same (Component.ofPart p'.2.1))
      (d.parts call) (d'.parts call') := by
  simp only [Call.same, Bool.and_eq_true, Field.equalOptions_iff] at same
  obtain ⟨⟨parameters, -⟩, -⟩ := same
  apply List.rel_append
  · rcases parameters.none_or_some with ⟨hp, hp'⟩ | ⟨p, p', hp, hp', same⟩
    · rw [hp, hp']
      exact .nil
    · rw [hp, hp']
      exact .cons ⟨rfl, .object none [] (same_parameters same)⟩ .nil
  · refine List.rel_filterMap ?_ bodies
    rintro ⟨key, body⟩ ⟨_, body'⟩ ⟨rfl, same⟩
    rcases (Field.equalOptions_iff.mp same).none_or_some with
      ⟨rfl, rfl⟩ | ⟨body, body', rfl, rfl, same⟩
    · exact .none
    · simp only [Body.same, Bool.and_eq_true, Field.equalOptions_iff] at same
      obtain ⟨⟨-, schemas⟩, -⟩ := same
      rcases schemas.none_or_some with ⟨hs, hs'⟩ | ⟨s, s', hs, hs', same⟩
      · simp only [Option.bind_some, hs, hs']
        exact .none
      · simp only [Option.bind_some, hs, hs']
        exact .some ⟨rfl, same_ofPart same⟩

theorem callFields_eq {nsid : String} {d d' : Definition} {call call' : Call}
    (same : call.same call' = true) (input : d.takesInput = d'.takesInput) (keys : List String) :
    callFields nsid d call keys = callFields nsid d' call' keys := by
  simp only [Call.same, Bool.and_eq_true, Field.equalOptions_iff] at same
  obtain ⟨⟨parameters, -⟩, -⟩ := same
  have required : call.parameters.any (!·.required.isEmpty) =
      call'.parameters.any (!·.required.isEmpty) := by
    rcases parameters.none_or_some with ⟨hp, hp'⟩ | ⟨p, p', hp, hp', same⟩
    · rw [hp, hp']
    · simp only [Parameters.same, Bool.and_eq_true] at same
      have items := Value.sameItems_iff.mp same.1.2
      rw [hp, hp', Option.any_some, Option.any_some]
      generalize p.required = xs, p'.required = ys at items
      cases items <;> rfl
  simp only [callFields, required, input]

/-- Equal definitions have components under the same keys, and these are equal. -/
theorem forall₂_components {d d' : Definition} (same : d.same d' = true) (nsid key : String) :
    List.Forall₂ (fun e e' => e.1 = e'.1 ∧ e.2.Same e'.2) (d.components nsid key)
      (d'.components nsid key) := by
  have ofCall {call call' : Call} (same : call.same call' = true)
      (input : d.takesInput = d'.takesInput)
      (bodies : List.Forall₂ (fun b b' => b.1 = b'.1 ∧ equalOptions Body.same b.2 b'.2 = true)
        d.bodies d'.bodies) :
      List.Forall₂ (fun e e' : String × Component => e.1 = e'.1 ∧ e.2.Same e'.2)
        ((key, .call (callFields nsid d call ((d.parts call).map (·.1)))) ::
          (d.parts call).map fun p => (p.1, Component.ofPart p.2.1))
        ((key, .call (callFields nsid d' call' ((d'.parts call').map (·.1)))) ::
          (d'.parts call').map fun p => (p.1, Component.ofPart p.2.1)) := by
    have parts := forall₂_parts same bodies
    have keys : (d.parts call).map (·.1) = (d'.parts call').map (·.1) := by
      rw [← List.forall₂_eq_eq_eq, List.forall₂_map_left_iff, List.forall₂_map_right_iff]
      exact parts.imp fun _ _ same => same.1
    rw [keys, callFields_eq same input]
    refine .cons ⟨rfl, .call _⟩ ?_
    rw [List.forall₂_map_left_iff, List.forall₂_map_right_iff]
    exact parts
  cases d <;> cases d' <;> simp only [Definition.same, Bool.and_eq_true, reduceCtorEq] at same
  · exact .cons ⟨rfl, .object _ _ same.1.1⟩ .nil
  · exact .cons ⟨rfl, .object _ _ same⟩ .nil
  · exact ofCall same.1 rfl (.cons ⟨rfl, same.2⟩ .nil)
  · exact ofCall same.1.1 rfl (.cons ⟨rfl, same.1.2⟩ (.cons ⟨rfl, same.2⟩ .nil))
  · exact ofCall same.1 rfl (.cons ⟨rfl, same.2⟩ .nil)
  · exact .cons ⟨rfl, .token⟩ .nil
  · exact .cons ⟨rfl, .field same⟩ .nil

end Definition

/-! ### Components of equal documents -/

namespace Document

/-- Whether the components of two documents under one key list the same values with their kinds. -/
def keepsKinds (a b : Document) : Bool :=
  a.components.all fun e => b.components.all fun e' => e.1 != e'.1 || e.2.keepsKinds e'.2

/-- Every component of one of two equal documents that list the same values with their kinds is like
one of the other under its key. -/
theorem exists_alike {v w : Value} {a b : Document} (hv : v.Decoded) (hw : w.Decoded)
    (ha : ofValue v = .ok a) (hb : ofValue w = .ok b) (same : a.same b = true)
    (kinds : a.keepsKinds b = true) :
    (∀ e ∈ a.components, ∃ c, (e.1, c) ∈ b.components ∧ e.2.Alike c) ∧
      ∀ e ∈ b.components, ∃ c, (e.1, c) ∈ a.components ∧ e.2.Alike c := by
  obtain ⟨names, decoded⟩ := decoded_of_ofValue hv ha
  obtain ⟨names', decoded'⟩ := decoded_of_ofValue hw hb
  simp only [Document.same, Bool.and_eq_true, beq_iff_eq] at same
  obtain ⟨⟨⟨⟨id, definitions⟩, -⟩, -⟩, -⟩ := same
  obtain ⟨length, found⟩ := Entries.agree_iff.mp definitions
  have related := Entries.rel_find? (R := fun d d' => d.same d' = true) names length found
  -- two definitions under one name have components under the same keys
  have components {name : String} {d d' : Definition} (hd : a.definitions.find? name = some d)
      (hd' : b.definitions.find? name = some d') (same : d.same d' = true) :
      List.Forall₂ (fun e e' => e.1 = e'.1 ∧ e ∈ a.components ∧ e' ∈ b.components ∧ e.2.Alike e'.2)
        (d.components a.id name) (d'.components b.id name) := by
    rw [← id]
    refine (Definition.forall₂_components same a.id name).imp_mem ?_
    rintro ⟨key, c⟩ hc ⟨_, c'⟩ hc' ⟨rfl, same⟩
    have mem : (key, c) ∈ a.components :=
      List.mem_flatMap.mpr ⟨_, Entries.mem_of_find?_eq_some hd, hc⟩
    have mem' : (key, c') ∈ b.components :=
      List.mem_flatMap.mpr ⟨_, Entries.mem_of_find?_eq_some hd', id ▸ hc'⟩
    have kinds := List.all_eq_true.mp (List.all_eq_true.mp kinds _ mem) _ mem'
    rw [bne_self_eq_false, Bool.false_or] at kinds
    exact ⟨rfl, mem, mem',
      Definition.Component.alike_of_same (decoded _ mem) (decoded' _ mem') same kinds⟩
  constructor
  · intro e he
    obtain ⟨given, hgiven, he⟩ := List.mem_flatMap.mp he
    have hd := (Entries.find?_eq_some_iff names).mpr hgiven
    obtain ⟨d', hd', same⟩ := found given hgiven
    obtain ⟨⟨_, c'⟩, hc', rfl, -, mem', alike⟩ := (components hd hd' same).exists_right he
    exact ⟨c', mem', alike⟩
  · intro e' he'
    obtain ⟨given, hgiven, he'⟩ := List.mem_flatMap.mp he'
    have hd' := (Entries.find?_eq_some_iff names').mpr hgiven
    rcases (related given.1).none_or_some with ⟨-, absent⟩ | ⟨d, d', hd, hd'', same⟩
    · rw [hd'] at absent
      cases absent
    · obtain rfl := Option.some.inj (hd'.symm.trans hd'')
      obtain ⟨⟨_, c⟩, hc, rfl, mem, -, alike⟩ := (components hd hd' same).exists_left he'
      exact ⟨c, mem, alike.symm⟩

end Document

/-! ### What equal components compile to -/

theorem Schema.upholds_refl (follow : Reference → Value → Path → Check Unit Value) (s : Schema) :
    Upholds follow follow s s := by
  intro v m path hm
  rw [hm]
  exact NoFailure.ok m

variable {follow : Reference → Value → Path → Check Unit Value} {nsid key : String}

namespace Definition

/-- The fields of two objects that a property may have: they say the same, or are one field. -/
def Corresponds (f f' : Field) : Prop :=
  f.Alike f' ∨ f' = f

/-- A property upholds another one if their fields correspond. -/
theorem upholdsField_of {name : String} {f f' : Field} {strict strict' : Bool}
    {i i' : CompiledField} (h : Corresponds f f') (hi : (f.compile nsid strict).outcome = .ok i)
    (hi' : (f'.compile nsid strict').outcome = .ok i') (required nullable : Bool) :
    UpholdsField follow follow (CompiledProperty.of name f i required nullable).schema
      (CompiledProperty.of name f' i' required nullable).schema := by
  have field : Upholds follow follow i.schema i'.schema ∧
      (f.default? = none ↔ f'.default? = none) := by
    rcases h with alike | rfl
    · exact ⟨alike.upholds (fun _ => Schema.upholds_refl follow _) hi hi',
        alike.saysSame.default?_eq_none_iff⟩
    · rw [Field.compile_unique hi hi']
      exact ⟨Schema.upholds_refl follow _, Iff.rfl⟩
  obtain ⟨upholds, default⟩ := field
  constructor
  · cases required
    · cases nullable
      · exact upholds
      · exact upholds.nullable
    · cases nullable
      · exact upholds.required
      · exact upholds.nullable.required
  · obtain ⟨marked, optional⟩ := (Field.compiles_of_outcome hi).marks
    obtain ⟨marked', optional'⟩ := (Field.compiles_of_outcome hi').marks
    unfold Schema.MayBeAbsent
    rw [CompiledProperty.default?_of, CompiledProperty.default?_of, marked, marked', default,
      CompiledProperty.isRequired_of optional, CompiledProperty.isRequired_of optional']
    exact id

theorem marks_of_alike {body body' : ObjectBody} (h : body.Alike body') (name : String) :
    mustBePresent body name = mustBePresent body' name ∧
      mayBeNull body name = mayBeNull body' name := by
  constructor
  · rw [Bool.eq_iff_iff, mustBePresent_eq_true_iff, mustBePresent_eq_true_iff, h.required]
  · rw [Bool.eq_iff_iff, mayBeNull_eq_true_iff, mayBeNull_eq_true_iff, h.nullable]

/-- An object upholds another one that says the same, whatever the order of the properties. -/
theorem ObjectCompiles.upholds {key' className className' : String} {strict strict' : Bool}
    {body body' : ObjectBody} {typeName : Option String} {brand : Entries Field}
    {compiled compiled' : List CompiledProperty} {recordType recordType' : RecordType}
    {c c' : CompiledDefinition}
    (h : ObjectCompiles nsid key className strict body typeName brand compiled recordType c)
    (h' : ObjectCompiles nsid key' className' strict' body' typeName brand compiled' recordType' c')
    (alike : body.Alike body') : Upholds follow follow c.schema c'.schema := by
  have given : ∀ name,
      Option.Rel Corresponds (body.properties.find? name) (body'.properties.find? name) := by
    intro name
    rcases (alike.properties name).none_or_some with ⟨hf, hf'⟩ | ⟨f, f', hf, hf', alike⟩
    · rw [hf, hf']
      exact .none
    · rw [hf, hf']
      exact .some (.inl alike)
  have properties (name : String) : Option.Rel Corresponds
      ((body.properties.merge brand).find? name) ((body'.properties.merge brand).find? name) :=
    Entries.rel_find?_merge given (fun _ _ => .inr rfl) name
  rw [h.schema_eq, h'.schema_eq]
  apply Schema.upholds_fields
  intro e' he'
  obtain ⟨p', hp', rfl⟩ := List.mem_map.mp he'
  obtain ⟨⟨name, f'⟩, hf', i', hi', rfl⟩ := h'.properties.exists_left hp'
  have found' := (Entries.find?_eq_some_iff (Entries.nodup_keys_merge alike.names' brand)).mpr hf'
  rcases (properties name).none_or_some with ⟨-, absent⟩ | ⟨f, f'', found, found'', corresponds⟩
  · rw [found'] at absent
    cases absent
  · obtain rfl := Option.some.inj (found'.symm.trans found'')
    obtain ⟨p, hp, i, hi, rfl⟩ :=
      h.properties.exists_right (Entries.mem_of_find?_eq_some found)
    obtain ⟨required, nullable⟩ := marks_of_alike alike name
    have upholds : UpholdsField follow follow
        (CompiledProperty.of name f i (mustBePresent body name) (mayBeNull body name)).schema
        (CompiledProperty.of name f' i' (mustBePresent body name) (mayBeNull body name)).schema :=
      upholdsField_of corresponds hi hi' _ _
    refine ⟨_, List.mem_map.mpr ⟨_, hp, rfl⟩, ?_⟩
    dsimp only
    rw [← required, ← nullable]
    exact upholds

/-- **Equal components mean the same.** What a component compiles to refuses nothing that the other
accepts. -/
theorem Component.Compiles.upholds {strict strict' : Bool} {component component' : Component}
    {c c' : CompiledDefinition} (h : component.Compiles nsid key strict c)
    (h' : component'.Compiles nsid key strict' c') (alike : component.Alike component') :
    Upholds follow follow c.schema c'.schema := by
  cases alike with
  | object typeName brand alike =>
    cases h with
    | object h =>
      cases h' with
      | object h' => exact h.upholds h' alike
  | call fields =>
    cases h
    cases h'
    exact Schema.upholds_refl follow _
  | token =>
    cases h
    cases h'
    exact Schema.upholds_refl follow _
  | field alike =>
    cases h with
    | field hi =>
      cases h' with
      | field hi' => exact alike.upholds (fun _ => Schema.upholds_refl follow _) hi hi'

end Definition

end Lexicon
