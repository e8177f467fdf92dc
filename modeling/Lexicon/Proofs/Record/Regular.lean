import Lexicon.Proofs.Compile.Field
import Lexicon.Proofs.Document.Reading
import Lexicon.Proofs.Record.Hydrate
import Lexicon.Proofs.Schema.Written
import Lexicon.Schema.Language
import Mathlib.Logic.Relation

/-!
# Regular definitions

A definition is regular if it says of its values only what the language declares, has no union, and
gives no default that it would not accept itself. Main statements: the fixed values, the lists of
values and the defaults of a regular field are made of single values, which are written as they are.
-/

namespace Lexicon

/-- What the language declares about the fields of a type, each with the schema of its value. -/
def Language.options (type : Value) : List (String × Schema) :=
  match type.str?.bind (Entries.find? (itemTypes ++ [("array", arrayField)])) with
  | some (.object fields _ _) => fields
  | _ => []

namespace Field

/-- A field says of its values only what the language declares for its type, and in the form that is
declared, which the schema of documents asks for. -/
def UsesDeclared (f : Field) : Prop :=
  ∀ e ∈ f.options, ∃ s, (e.1, s) ∈ Language.options f.type ∧ s.Accepts e.2

/-- A field without unions that uses what is declared and accepts its default, and whose items are
so. -/
inductive Regular (nsid : String) : Field → Prop
  | intro {f : Field} (union : f.type ≠ .str "union") (declared : f.UsesDeclared)
      (default : ∀ strict compiled v, (f.compile nsid strict).outcome = .ok compiled →
        f.option? "default" = some v → compiled.schema.Accepts v)
      (items : f.type = .str "array" → ∀ item, f.items = some item → Regular nsid item) :
      Regular nsid f

/-- A field refers to a definition, by itself or by its items. -/
inductive Refers (nsid : String) : Field → Reference → Prop
  | ref {f : Field} {target : Reference} (type : f.type = .str "ref")
      (h : readReference nsid (f.option "ref") = .ok target) : Refers nsid f target
  | items {f item : Field} {target : Reference} (type : f.type = .str "array")
      (h : f.items = some item) (refers : Refers nsid item target) : Refers nsid f target

end Field

namespace Definition.Component

/-- An object whose properties are regular, or another component that is. The type of the records of
a part of a call is not kept, so that it must not be a property. -/
def Regular (nsid : String) : Component → Prop
  | .object body typeName _ =>
    body.properties.keys.Nodup ∧ (∀ e ∈ body.properties, e.2.Regular nsid) ∧
      (typeName = none → Naming.typeKey ∉ body.properties.keys)
  | .field f => f.Regular nsid
  | .call _ | .token => True

/-- A component refers to a definition. -/
def Refers (nsid : String) : Component → Reference → Prop
  | .object body _ _, target => ∃ e ∈ body.properties, e.2.Refers nsid target
  | .field f, target => f.Refers nsid target
  | .call fields, target => ∃ p ∈ fields, p.property.type = .ref target
  | .token, _ => False

end Definition.Component

namespace Registry

variable (env : Surroundings) (r : Registry)

/-- What a reference leads to in a registry is made from a component. -/
def Defines (target : Reference) (component : Definition.Component) : Prop :=
  ∃ b, r.found env target.nsid = .ok b ∧ (target.fragment, component) ∈ b.document.components

/-- What one reference leads to refers to another. -/
def RefersTo (source target : Reference) : Prop :=
  ∃ component, r.Defines env source component ∧ component.Refers source.nsid target

/-- Whatever a reference leads to, at once or through further references, is regular. -/
def RegularFrom (source : Reference) : Prop :=
  ∀ target, Relation.ReflTransGen (r.RefersTo env) source target →
    ∀ component, r.Defines env target component → component.Regular target.nsid

/-- What is known is regular, and refers to nothing but what is known. -/
def Closed (known : Reference → Prop) : Prop :=
  ∀ target, known target → ∀ component, r.Defines env target component →
    component.Regular target.nsid ∧
      ∀ next, component.Refers target.nsid next → known next

end Registry

/-- Whatever a reference leads to is regular exactly if the reference is among some that are closed
and regular. -/
theorem Registry.regularFrom_iff {env : Surroundings} {r : Registry} {source : Reference} :
    r.RegularFrom env source ↔ ∃ known, known source ∧ r.Closed env known := by
  constructor
  · intro h
    refine ⟨Relation.ReflTransGen (r.RefersTo env) source, .refl, ?_⟩
    intro target reached component defined
    refine ⟨h target reached component defined, fun next refers => ?_⟩
    exact reached.tail ⟨component, defined, refers⟩
  · rintro ⟨known, hsource, closed⟩ target reached component defined
    refine (closed target ?_ component defined).1
    clear defined
    induction reached with
    | refl => exact hsource
    | tail _ step ih =>
      obtain ⟨component', defined', refers⟩ := step
      exact (closed _ ih component' defined').2 _ refers

/-! ### Declared options -/

/-- Where the language declares defaults, fixed values and lists of values, these are single values,
and defaults only where a compiled field has one. -/
theorem Language.of_mem_options {type : Value} {key : String} {s : Schema}
    (h : (key, s) ∈ options type) :
    (key = "default" ∨ key = "const" → (∃ name ∈ Field.defaultTypes, type = .str name) ∧
      (s = .text ∨ s = .boolean ∨ s = anyInteger)) ∧
    (key = "enum" → s = .array .text {} ∨ s = .array anyInteger {}) := by
  unfold options at h
  split at h
  · next fields extra closed hfound =>
    obtain ⟨name, hname, hfound⟩ := Option.bind_eq_some_iff.mp hfound
    obtain rfl : type = .str name := by
      cases type <;> simp_all [Value.str?]
    have known := Entries.mem_of_find?_eq_some hfound
    simp only [itemTypes, booleanField, shape, integerField, stringField, unknownField,
      referenceField, unionField, arrayField, lengths, texts, Schema.fields, List.cons_append,
      List.nil_append, List.mem_cons, Prod.mk.injEq, Schema.object.injEq, List.not_mem_nil,
      or_false] at known
    -- one case for each type of fields that the language knows
    rcases known with ⟨rfl, rfl, _⟩ | ⟨rfl, rfl, _⟩ | ⟨rfl, rfl, _⟩ | ⟨rfl, rfl, _⟩ |
      ⟨rfl, rfl, _⟩ | ⟨rfl, rfl, _⟩ | ⟨rfl, rfl, _⟩ | ⟨rfl, rfl, _⟩ | ⟨rfl, rfl, _⟩ | ⟨rfl, rfl, _⟩
    all_goals
      simp only [List.mem_cons, Prod.mk.injEq, List.not_mem_nil, or_false] at h
      refine ⟨fun hkey => ?_, fun hkey => ?_⟩
      · rcases hkey with rfl | rfl <;> simp at h <;> subst h <;> simp [Field.defaultTypes]
      · subst hkey
        simp at h <;> subst h <;> simp
  · simp at h

/-- A text, a truth value or an integer. -/
def Value.IsSingle : Value → Prop
  | .str _ | .bool _ | .int _ => True
  | _ => False

theorem Value.IsSingle.isJson {v : Value} (h : v.IsSingle) : v.IsJson := by
  cases v with
  | str s => exact .str s
  | bool b => exact .bool b
  | int n => exact .int n
  | _ => exact absurd h id

theorem Value.IsSingle.ne_null {v : Value} (h : v.IsSingle) : v ≠ .null := by
  rintro rfl
  exact h

namespace Field

private theorem isSingle_of_checked {s : Schema}
    (hs : s = .text ∨ s = .boolean ∨ s = Language.anyInteger)
    {follow : Reference → Value → Path → Check Unit Value} {v n : Value} {path : Path}
    (h : (s.checkWith follow v path).outcome = .ok n) : v.IsSingle := by
  rcases hs with rfl | rfl | rfl <;>
    cases v <;>
    simp [Value.IsSingle, Schema.text, Language.anyInteger, Schema.checkWith, Check.fail] at h ⊢

variable {f : Field}

/-- A default or a fixed value that is declared is a single value. -/
theorem UsesDeclared.isSingle (h : f.UsesDeclared) {key : String}
    (hkey : key = "default" ∨ key = "const") {v : Value} (hv : f.options.find? key = some v) :
    (∃ name ∈ defaultTypes, f.type = .str name) ∧ v.IsSingle := by
  obtain ⟨s, hs, accepts⟩ := h _ (Entries.mem_of_find?_eq_some hv)
  obtain ⟨n, accepted⟩ := Schema.accepts_iff.mp accepts
  obtain ⟨type, single⟩ := (Language.of_mem_options hs).1 hkey
  exact ⟨type, isSingle_of_checked single accepted⟩

/-- The values of a list that is declared are single values. -/
theorem UsesDeclared.isSingle_of_enum (h : f.UsesDeclared) {v : Value}
    (hv : f.options.find? "enum" = some v) {values : List Value}
    (hvalues : v.elements = .ok values) :
    ∀ x ∈ values, x.IsSingle := by
  obtain ⟨s, hs, accepts⟩ := h _ (Entries.mem_of_find?_eq_some hv)
  obtain ⟨item, hitem, rfl⟩ : ∃ item : Schema,
      (item = .text ∨ item = .boolean ∨ item = Language.anyInteger) ∧ s = .array item {} := by
    rcases (Language.of_mem_options hs).2 rfl with rfl | rfl
    · exact ⟨_, .inl rfl, rfl⟩
    · exact ⟨_, .inr (.inr rfl), rfl⟩
  obtain ⟨xs, hxs, accepted⟩ := accepts.items
  obtain rfl : xs = values := by
    rcases hxs with rfl | rfl <;> exact Except.ok.inj hvalues
  intro x hx
  obtain ⟨n, hn⟩ := Schema.accepts_iff.mp (accepted x hx)
  exact isSingle_of_checked hitem hn

/-! ### Some regular fields -/

/-- A field of which nothing is said is regular. -/
theorem Regular.bare {nsid : String} (options : f.options = []) (union : f.type ≠ .str "union")
    (items : f.items = none) : f.Regular nsid := by
  refine .intro union ?_ ?_ (by simp [items])
  · intro e he
    simp [options] at he
  · intro strict compiled v _ hv
    simp [option?, Field.option, Entries.getValue, options, Entries.find?, Value.ofOption,
      Value.present?] at hv

/-- A reference is regular. -/
theorem Regular.reference (nsid target : String) :
    Regular nsid { type := .str "ref", options := [("ref", .str target)] } := by
  refine .intro (by simp) ?_ ?_ (by simp)
  · intro e he
    rw [List.mem_singleton.mp he]
    refine ⟨.required .text, ?_, Schema.accepts_iff.mpr ⟨.str target, rfl⟩⟩
    simp [Language.options, Language.itemTypes, Language.referenceField, Language.shape,
      Schema.fields, Entries.find?, Value.str?]
  · intro strict compiled v _ hv
    simp [option?, Field.option, Entries.getValue, Entries.find?, Value.ofOption,
      Value.present?] at hv

end Field

end Lexicon
