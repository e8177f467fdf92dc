import Lexicon.Proofs.Compile.Field
import Lexicon.Proofs.Entries
import Lexicon.Registry.Basic

/-!
# Recognized types

Where types are strict, a field of a type that is not known is refused, wherever in a document it
is compiled. Main statement: a document compiles strictly exactly if it compiles at all and the
types of all fields that it is compiled from are known, and then both ways give the same bundle.
-/

namespace Lexicon

variable {nsid : String}

/-! ### What is given under a condition -/

/-- Where something holds a computation gives what another one gives, and elsewhere nothing. -/
def Traced.GivesWhere {α : Type} (t : Traced α) (P : Prop) (t' : Traced α) : Prop :=
  ∀ a, t.outcome = .ok a ↔ t'.outcome = .ok a ∧ P

namespace Traced.GivesWhere

variable {α β : Type} {t t' : Traced α} {P Q : Prop}

theorem refl (t : Traced α) (h : P) : t.GivesWhere P t :=
  fun _ => (and_iff_left h).symm

/-- Nothing is given where the condition does not hold. -/
theorem refused (e : Fault) (t' : Traced α) (h : ¬ P) : (fault e).GivesWhere P t' :=
  fun _ => ⟨nofun, fun given => absurd given.2 h⟩

theorem congr (h : t.GivesWhere P t') (iff : P ↔ Q) : t.GivesWhere Q t' :=
  propext iff ▸ h

theorem bind {f f' : α → Traced β} (h : t.GivesWhere P t') (hf : ∀ a, (f a).GivesWhere Q (f' a)) :
    (t >>= f).GivesWhere (P ∧ Q) (t' >>= f') := by
  intro b
  simp only [outcome_bind_eq_ok_iff, h _, hf _ b]
  constructor
  · rintro ⟨a, ⟨ha, hP⟩, hb, hQ⟩
    exact ⟨⟨a, ha, hb⟩, hP, hQ⟩
  · rintro ⟨⟨a, ha, hb⟩, hP, hQ⟩
    exact ⟨a, ⟨ha, hP⟩, hb, hQ⟩

/-- What is done with a result does not ask for more. -/
theorem before (h : t.GivesWhere P t') (f : α → Traced β) :
    (t >>= f).GivesWhere P (t' >>= f) :=
  (h.bind fun a => refl (f a) trivial).congr (and_iff_left trivial)

/-- What was done before does not ask for anything. -/
theorem after (t : Traced α) {f f' : α → Traced β} (h : ∀ a, (f a).GivesWhere Q (f' a)) :
    (t >>= f).GivesWhere Q (t >>= f') :=
  ((refl t trivial).bind h).congr (and_iff_right trivial)

theorem mapM {f f' : α → Traced β} {P : α → Prop} (h : ∀ a, (f a).GivesWhere (P a) (f' a))
    (xs : List α) : (xs.mapM f).GivesWhere (∀ x ∈ xs, P x) (xs.mapM f') := by
  induction xs with
  | nil => exact refl _ nofun
  | cons x xs ih =>
    rw [List.mapM_cons, List.mapM_cons]
    exact ((h x).bind fun y => ih.before fun ys => pure (y :: ys)).congr List.forall_mem_cons.symm

end Traced.GivesWhere

open Traced (GivesWhere)

/-! ### Fields -/

namespace Field

variable {f g : Field}

/-- The names of the types that are known. -/
def recognizedTypes : List String :=
  ["string", "boolean", "integer", "array", "blob", "bytes", "cid-link", "ref", "union", "unknown"]

/-- The type of a field is known. -/
def IsRecognized (f : Field) : Prop :=
  ∃ type ∈ recognizedTypes, f.type = .str type

/-- A field is compiled with another one: it is that one, or the items of an array have it. -/
inductive Has : Field → Field → Prop
  | self (f : Field) : Has f f
  | items {options : Entries Value} {items g : Field} {description : Value} (h : Has items g) :
      Has ⟨.str "array", options, some items, description⟩ g

theorem isSome_compileScalar?_iff {type : String} :
    (f.compileScalar? nsid type).isSome = true ↔ type ∈ recognizedTypes ∧ type ≠ "array" := by
  unfold compileScalar?
  split <;> simp_all [recognizedTypes]

theorem isRecognized_iff {type : String} (htype : f.type = .str type) :
    f.IsRecognized ↔ type ∈ recognizedTypes := by
  constructor
  · rintro ⟨name, known, hname⟩
    rwa [← Value.str.inj (hname.symm.trans htype)]
  · exact fun known => ⟨type, known, htype⟩

/-- Only an array has other fields. -/
theorem forall_has_iff_of_ne (scalar : f.type ≠ .str "array") {P : Field → Prop} :
    (∀ g, f.Has g → P g) ↔ P f := by
  refine ⟨fun h => h f (.self f), fun h g hg => ?_⟩
  cases hg with
  | self => exact h
  | items => exact absurd rfl scalar

theorem forall_has_array_iff {options : Entries Value} {items : Field} {description : Value}
    {P : Field → Prop} (array : P ⟨.str "array", options, some items, description⟩) :
    (∀ g, Has ⟨.str "array", options, some items, description⟩ g → P g) ↔
      ∀ g, items.Has g → P g := by
  refine ⟨fun h g hg => h g (.items hg), fun h g hg => ?_⟩
  cases hg with
  | self => exact array
  | items hg => exact h g hg

/-- What is compiled with a field of an unknown type is not all known. -/
theorem not_forall_has (scalar : f.type ≠ .str "array") (unknown : ¬ f.IsRecognized) :
    ¬ ∀ g, f.Has g → g.IsRecognized :=
  mt (forall_has_iff_of_ne scalar).mp unknown

/-- A field compiles strictly where the types of all fields that are compiled with it are known. -/
theorem givesWhere_compile (f : Field) :
    (f.compile nsid true).GivesWhere (∀ g, f.Has g → g.IsRecognized) (f.compile nsid false) := by
  fun_induction compile nsid true f with
  | case1 =>
    -- an array without items is refused either way
    rw [compile]
    exact fun _ => ⟨nofun, nofun⟩
  | case2 options items description ih =>
    have array : IsRecognized ⟨.str "array", options, some items, description⟩ :=
      ⟨"array", by simp [recognizedTypes], rfl⟩
    rw [compile]
    exact (ih.before _).congr (forall_has_array_iff array).symm
  | case3 type _ _ _ bare filled result known =>
    obtain ⟨recognized, scalar⟩ := isSome_compileScalar?_iff.mp (Option.isSome_of_eq_some known)
    rw [compile, known]
    · refine GivesWhere.refl _ ((forall_has_iff_of_ne ?_).mpr ⟨type, recognized, rfl⟩)
      exact fun array => scalar (Value.str.inj array)
    · exact bare
    · exact filled
  | case4 type _ items _ bare filled unknown =>
    have scalar : type ≠ "array" := by
      cases items with
      | none => exact bare rfl
      | some items => exact filled items rfl
    rw [compile, unknown]
    · refine GivesWhere.refused _ _ (not_forall_has (fun array => scalar (Value.str.inj array)) ?_)
      rw [← Option.not_isSome_iff_eq_none, isSome_compileScalar?_iff] at unknown
      exact fun recognized => unknown ⟨(isRecognized_iff rfl).mp recognized, scalar⟩
    · exact bare
    · exact filled
  | case5 _ _ _ _ bare filled other key =>
    -- a type that is no text is unknown as well
    rw [compile, if_pos key]
    · refine GivesWhere.refused _ _ (not_forall_has (other _) ?_)
      rintro ⟨type, -, htype⟩
      exact other type htype
    · exact bare
    · exact filled
    · exact other
  | case6 _ _ _ _ bare filled other key =>
    rw [compile, if_neg key]
    · exact fun _ => ⟨nofun, nofun⟩
    · exact bare
    · exact filled
    · exact other

end Field

/-! ### Definitions -/

/-- The fields that are the properties of an object. -/
def ObjectBody.fields (body : ObjectBody) : List Field :=
  body.properties.map (·.2)

/-- The fields that a body says what is sent by. -/
def BodySchema.fields : BodySchema → List Field
  | .object body => body.fields
  | .field f => [f]

/-- The fields of a body that may be absent or without a schema. -/
def Body.fields (body : Option Body) : List Field :=
  ((body.bind (·.schema)).map (·.fields)).getD []

/-- The fields that are the parameters of a call. -/
def Call.fields (call : Call) : List Field :=
  (call.parameters.map fun p => p.properties.map (·.2)).getD []

namespace Definition

/-- The fields that a definition is compiled from, apart from the items of arrays. The type of a
record is not one of them: it is fixed whatever is said about it. -/
def fields : Definition → List Field
  | .record body _ _ => (body.properties.eraseP (·.1 = Naming.typeKey)).map (·.2)
  | .object body => body.fields
  | .query call output => call.fields ++ Body.fields output
  | .procedure call input output => call.fields ++ Body.fields input ++ Body.fields output
  | .subscription call message => call.fields ++ Body.fields message
  | .token _ => []
  | .field f => [f]

/-- All fields that are compiled with one of some fields are of known types. -/
def Recognizes (fs : List Field) : Prop :=
  ∀ f ∈ fs, ∀ g, f.Has g → g.IsRecognized

theorem recognizes_append {fs gs : List Field} :
    Recognizes (fs ++ gs) ↔ Recognizes fs ∧ Recognizes gs :=
  List.forall_mem_append

theorem recognizes_singleton {f : Field} : Recognizes [f] ↔ ∀ g, f.Has g → g.IsRecognized :=
  List.forall_mem_singleton

theorem recognizes_map {es : Entries Field} :
    Recognizes (es.map (·.2)) ↔ ∀ e ∈ es, ∀ g, e.2.Has g → g.IsRecognized :=
  List.forall_mem_map

variable (strict : Bool)

theorem givesWhere_compileObject (key className : String) (body : ObjectBody)
    (typeName : Option String) (brand : Entries Field) (description : Value) :
    (compileObject nsid key className true body typeName brand description).GivesWhere
      (Recognizes ((body.properties.merge brand).map (·.2)))
      (compileObject nsid key className false body typeName brand description) := by
  unfold compileObject
  refine .after _ fun _ => .after _ fun _ => ?_
  refine ((GivesWhere.mapM (fun e : String × Field => ?_) _).before _).congr recognizes_map.symm
  exact (Field.givesWhere_compile e.2).before _

theorem givesWhere_compilePart (key : String) (schema : BodySchema) (description : Value) :
    (compilePart nsid key true schema description).GivesWhere (Recognizes schema.fields)
      (compilePart nsid key false schema description) := by
  cases schema with
  | object body => exact givesWhere_compileObject key _ body none [] .null
  | field f => exact ((Field.givesWhere_compile f).before _).congr recognizes_singleton.symm

theorem recognizes_body (key : String) (body : Option Body) :
    (∀ p ∈ (body.bind fun b => b.schema.map fun s => (key, s, b.description)),
      Recognizes p.2.1.fields) ↔ Recognizes (Body.fields body) := by
  rcases body with _ | ⟨_, _ | schema, _⟩ <;> simp [Body.fields, Recognizes]

/-- The parts of a call are compiled from its fields. -/
theorem recognizes_parts {d : Definition} {call : Call} (h : d.call? = some call) :
    (∀ p ∈ d.parts call, Recognizes p.2.1.fields) ↔ Recognizes d.fields := by
  have parameters : (∀ p ∈ (call.parameters.map fun p => ("params", BodySchema.object
      { properties := p.properties, required := p.required, description := p.description },
        p.description)).toList, Recognizes p.2.1.fields) ↔ Recognizes call.fields := by
    cases hp : call.parameters <;>
      simp [Call.fields, hp, BodySchema.fields, ObjectBody.fields, Recognizes]
  have bodies (bs : List (String × Option Body)) :
      (∀ p ∈ bs.filterMap (fun b => b.2.bind fun body =>
        body.schema.map fun s => (b.1, s, body.description)), Recognizes p.2.1.fields) ↔
      ∀ b ∈ bs, Recognizes (Body.fields b.2) := by
    constructor
    · intro h b hb
      rw [← recognizes_body b.1]
      exact fun p hp => h p (List.mem_filterMap.mpr ⟨b, hb, hp⟩)
    · intro h p hp
      obtain ⟨b, hb, hp⟩ := List.mem_filterMap.mp hp
      exact (recognizes_body b.1 b.2).mpr (h b hb) p hp
  rw [parts, List.forall_mem_append, parameters, bodies]
  cases d with
  | query | procedure | subscription =>
    obtain rfl := Option.some.inj h
    simp [Definition.bodies, fields, recognizes_append]
  | _ => cases h

theorem givesWhere_compileCall (key className : String) {d : Definition} {call : Call}
    (h : d.call? = some call) :
    (compileCall nsid key className true d call).GivesWhere (Recognizes d.fields)
      (compileCall nsid key className false d call) :=
  ((GivesWhere.mapM (fun p : String × BodySchema × Value =>
    givesWhere_compilePart p.1 p.2.1 p.2.2) _).before _).congr (recognizes_parts h)

/-- The type of a record is known, whatever its properties say about it. -/
theorem recognizes_record {properties : Entries Field} {typeName : String} :
    Recognizes ((properties.merge [(Naming.typeKey, brandField typeName)]).map (·.2)) ↔
      Recognizes ((properties.eraseP (·.1 = Naming.typeKey)).map (·.2)) := by
  have brand : ∀ g, (brandField typeName).Has g → g.IsRecognized :=
    (Field.forall_has_iff_of_ne (by simp [brandField])).mpr
      ⟨"string", by simp [Field.recognizedTypes], rfl⟩
  simp only [recognizes_map, Entries.merge, List.foldl_cons, List.foldl_nil,
    Entries.mem_insert_iff, forall_eq_or_imp]
  exact and_iff_right brand

theorem givesWhere_compile (key className : String) (d : Definition) :
    (d.compile nsid key className true).GivesWhere (Recognizes d.fields)
      (d.compile nsid key className false) := by
  cases d with
  | record body _ description =>
    exact ((givesWhere_compileObject key className body _ _ description).before _).congr
      recognizes_record
  | object body => exact (givesWhere_compileObject key className body _ [] .null).before _
  | query call output => exact givesWhere_compileCall key className rfl
  | procedure call input output => exact givesWhere_compileCall key className rfl
  | subscription call message => exact givesWhere_compileCall key className rfl
  | token description => exact .refl _ nofun
  | field f => exact ((Field.givesWhere_compile f).before _).congr recognizes_singleton.symm

end Definition

/-! ### Documents -/

namespace Document

/-- A document is compiled from a field: a field of one of its definitions has it. -/
def Has (d : Document) (g : Field) : Prop :=
  ∃ e ∈ d.definitions, ∃ f ∈ e.2.fields, f.Has g

theorem givesWhere_compileDefinitions (d : Document) (definitions : Entries Definition)
    (done : Entries CompiledDefinition) :
    (d.compileDefinitions true done definitions).GivesWhere
      (∀ e ∈ definitions, Definition.Recognizes e.2.fields)
      (d.compileDefinitions false done definitions) := by
  induction definitions generalizing done with
  | nil => exact .refl _ nofun
  | cons e rest ih =>
    have first : (e.2.compile d.id e.1 (d.classNameOf e.1) true).GivesWhere _ _ :=
      Definition.givesWhere_compile e.1 (d.classNameOf e.1) e.2
    have both := first.bind fun compiled =>
      .after (liftM <| addCompiled d.id e.1 done compiled) ih
    rw [List.forall_mem_cons]
    exact both

theorem forall_has_iff {d : Document} : (∀ g, d.Has g → g.IsRecognized) ↔
    ∀ e ∈ d.definitions, Definition.Recognizes e.2.fields := by
  constructor
  · exact fun h e he f hf g hg => h g ⟨e, he, f, hf, hg⟩
  · rintro h g ⟨e, he, f, hf, hg⟩
    exact h e he f hf g hg

theorem givesWhere_compile (d : Document) (id : BundleId) (registry : Nat) :
    (d.compile id registry true).GivesWhere (∀ g, d.Has g → g.IsRecognized)
      (d.compile id registry false) := by
  have all : (d.compileAll true).GivesWhere (∀ g, d.Has g → g.IsRecognized)
      (d.compileAll false) :=
    (GivesWhere.after _ fun _ => d.givesWhere_compileDefinitions d.definitions []).congr
      forall_has_iff.symm
  exact all.before _

end Document

theorem Registry.fst_run_compile (env : Surroundings) (id : BundleId) (strict : Bool) (d : Document)
    (s : Store) :
    ((Registry.compile env id (some strict) d).run s).1 =
      (d.compile id s.registry.id strict).outcome := rfl

/-- **Strict mode only rejects.** A document compiles strictly exactly if it compiles and all fields
that it is compiled from are of known types, and both ways it compiles to the same bundle. -/
theorem Registry.compile_strict_iff (env : Surroundings) (id : BundleId) (d : Document)
    (s : Store) :
    ((∃ b, ((Registry.compile env id (some true) d).run s).1 = .ok b) ↔
      (∃ b, ((Registry.compile env id (some false) d).run s).1 = .ok b) ∧
        ∀ f, d.Has f → f.IsRecognized) ∧
    ∀ b b', ((Registry.compile env id (some true) d).run s).1 = .ok b →
      ((Registry.compile env id (some false) d).run s).1 = .ok b' → b' = b := by
  have gives := d.givesWhere_compile id s.registry.id
  simp only [fst_run_compile]
  refine ⟨?_, fun b b' hb hb' => Except.ok.inj (hb'.symm.trans ((gives b).mp hb).1)⟩
  rw [← exists_and_right]
  exact exists_congr gives

/-- An object with one property: an array of arrays of values of a type. -/
def gridOf (type : String) : Document where
  id := "com.example.grid"
  definitions := [("main", .object { properties := [("rows",
    ⟨.str "array", [], some ⟨.str "array", [], some { type := .str type }, .null⟩, .null⟩)] })]
  version := .int 1
  revision := .null
  description := .null
  source := .null

/-- A grid of values of an unknown type compiles unless types are strict. -/
theorem Registry.compile_strict_iff_grid :
    (∃ b, ((Registry.compile {} (.registered 0 "com.example.grid") (some false)
      (gridOf "float")).run ⟨{ id := 0, sources := [], strict := some true }, []⟩).1 = .ok b) ∧
    ¬ ∃ b, ((Registry.compile {} (.registered 0 "com.example.grid") (some true)
      (gridOf "float")).run ⟨{ id := 0, sources := [], strict := some true }, []⟩).1 = .ok b := by
  have lenient : ((Registry.compile {} (.registered 0 "com.example.grid") (some false)
      (gridOf "float")).run ⟨{ id := 0, sources := [], strict := some true }, []⟩).1.isOk =
        true := by
    decide +kernel
  refine ⟨Except.exists_of_isOk lenient, fun strict => ?_⟩
  have recognized := ((compile_strict_iff {} (.registered 0 "com.example.grid") (gridOf "float")
    ⟨{ id := 0, sources := [], strict := some true }, []⟩).1.mp strict).2
  have float : (gridOf "float").Has { type := .str "float" } :=
    ⟨_, List.mem_cons_self, _, List.mem_cons_self, .items (.items (.self _))⟩
  obtain ⟨type, known, same⟩ := recognized _ float
  obtain rfl := Value.str.inj same
  simp [Field.recognizedTypes] at known

end Lexicon
