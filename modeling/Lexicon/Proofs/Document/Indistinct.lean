import Lexicon.Document.Basic
import Lexicon.Proofs.Document.Same
import Lexicon.Proofs.Value.Reordered

/-!
# Indistinct parts of documents

Equality of parsed parts compares values, and a registry asks whether what it holds is equal to what
it is given. So two parts can take each other's place if they are equal, and the same parts are
equal to both. Main statements: one lemma for each kind of part, by which it is indistinct from
another one if its own parts are, whatever the order of its properties or definitions.
-/

namespace Lexicon

/-- Two parts that are equal, and that the same parts are equal to. -/
structure Indistinct {α : Type} (equal : α → α → Bool) (a b : α) : Prop where
  same : equal a b = true
  alike : ∀ c, equal c a = equal c b

/-! ### Values, and parts that may be absent -/

theorem Value.Reordered.indistinct {v w : Value} (h : v.Reordered w) (hv : v.Decoded) :
    Indistinct Value.same v w :=
  ⟨h.same hv, h.same_right hv.distinct⟩

theorem Value.indistinct_items {xs ys : List Value} (h : List.Forall₂ Reordered xs ys)
    (decoded : ∀ x ∈ xs, x.Decoded) : Indistinct sameItems xs ys := by
  have lists : Indistinct Value.same (.list xs) (.list ys) :=
    (Reordered.list h).indistinct (.list decoded)
  refine ⟨?_, fun cs => ?_⟩
  · have equal := lists.same
    rwa [same] at equal
  · have alike := lists.alike (.list cs)
    rwa [same, same] at alike

theorem indistinct_options {α : Type} {equal : α → α → Bool} {a b : Option α}
    (h : Option.Rel (Indistinct equal) a b) : Indistinct (equalOptions equal) a b := by
  cases h with
  | none => exact ⟨rfl, fun _ => rfl⟩
  | some h =>
    refine ⟨h.same, fun c => ?_⟩
    cases c with
    | none => rfl
    | some c => exact h.alike c

/-- Entries with indistinct values are indistinct in any order. -/
theorem Entries.indistinct_agree {α : Type} {equal : α → α → Bool} {xs zs ys : Entries α}
    (distinct : (keys xs).Nodup) (order : xs.Perm zs)
    (entries : List.Forall₂ (Under (Indistinct equal)) zs ys) : Indistinct (agree equal) xs ys := by
  have length : xs.length = ys.length := order.length_eq.trans entries.length_eq
  have found := rel_find?_of_perm distinct order entries
  constructor
  · refine agree_iff.mpr ⟨length, fun e he => ?_⟩
    rcases (found e.1).none_or_some with ⟨hx, -⟩ | ⟨x, y, hx, hy, indistinct⟩
    · rw [(find?_eq_some_iff distinct).mpr he] at hx
      cases hx
    · obtain rfl := Option.some.inj (((find?_eq_some_iff distinct).mpr he).symm.trans hx)
      exact ⟨y, hy, indistinct.same⟩
  · intro c
    rw [Bool.eq_iff_iff, agree_iff, agree_iff, length]
    refine and_congr_right fun _ => forall₂_congr fun e _ => ?_
    rcases (found e.1).none_or_some with ⟨hx, hy⟩ | ⟨x, y, hx, hy, indistinct⟩
    · simp [hx, hy]
    · simp [hx, hy, indistinct.alike]

/-! ### Fields and objects -/

theorem Field.same_eq (f f' : Field) :
    f.same f' = (f.type.same f'.type && (Value.object f.options).same (.object f'.options) &&
      equalOptions Field.same f.items f'.items && f.description.same f'.description) := by
  rw [Bool.eq_iff_iff, same_iff, ← equalOptions_iff]
  simp [and_assoc]

theorem Field.indistinct {f f' : Field} (type : Indistinct Value.same f.type f'.type)
    (options : Indistinct Value.same (.object f.options) (.object f'.options))
    (items : Indistinct (equalOptions Field.same) f.items f'.items)
    (description : Indistinct Value.same f.description f'.description) :
    Indistinct Field.same f f' where
  same := by simp [same_eq, type.same, options.same, items.same, description.same]
  alike c := by
    simp only [same_eq c, type.alike, options.alike, items.alike, description.alike]

theorem ObjectBody.indistinct {a b : ObjectBody}
    (properties : Indistinct (Entries.agree Field.same) a.properties b.properties)
    (required : Indistinct Value.sameItems a.required b.required)
    (nullable : Indistinct Value.sameItems a.nullable b.nullable)
    (description : Indistinct Value.same a.description b.description) :
    Indistinct ObjectBody.same a b where
  same := by
    simp [ObjectBody.same, properties.same, required.same, nullable.same, description.same]
  alike c := by
    simp only [ObjectBody.same, properties.alike, required.alike, nullable.alike,
      description.alike]

theorem Parameters.indistinct {a b : Parameters}
    (properties : Indistinct (Entries.agree Field.same) a.properties b.properties)
    (required : Indistinct Value.sameItems a.required b.required)
    (description : Indistinct Value.same a.description b.description) :
    Indistinct Parameters.same a b where
  same := by simp [Parameters.same, properties.same, required.same, description.same]
  alike c := by simp only [Parameters.same, properties.alike, required.alike, description.alike]

/-! ### Calls -/

theorem BodySchema.indistinct_object {a b : ObjectBody} (h : Indistinct ObjectBody.same a b) :
    Indistinct BodySchema.same (.object a) (.object b) := by
  refine ⟨h.same, fun c => ?_⟩
  cases c with
  | object c => exact h.alike c
  | field => rfl

theorem BodySchema.indistinct_field {a b : Field} (h : Indistinct Field.same a b) :
    Indistinct BodySchema.same (.field a) (.field b) := by
  refine ⟨h.same, fun c => ?_⟩
  cases c with
  | object => rfl
  | field c => exact h.alike c

theorem Body.indistinct {a b : Body} (encoding : Indistinct Value.same a.encoding b.encoding)
    (schema : Indistinct (equalOptions BodySchema.same) a.schema b.schema)
    (description : Indistinct Value.same a.description b.description) :
    Indistinct Body.same a b where
  same := by simp [Body.same, encoding.same, schema.same, description.same]
  alike c := by simp only [Body.same, encoding.alike, schema.alike, description.alike]

theorem NamedError.indistinct {a b : NamedError} (name : Indistinct Value.same a.name b.name)
    (description : Indistinct Value.same a.description b.description) :
    Indistinct NamedError.same a b where
  same := by simp [NamedError.same, name.same, description.same]
  alike c := by simp only [NamedError.same, name.alike, description.alike]

theorem NamedError.indistinct_list {xs ys : List NamedError}
    (h : List.Forall₂ (Indistinct NamedError.same) xs ys) : Indistinct sameList xs ys := by
  induction h with
  | nil => exact ⟨rfl, fun _ => rfl⟩
  | cons first _ ih =>
    refine ⟨by simp [sameList, first.same, ih.same], fun cs => ?_⟩
    cases cs with
    | nil => rfl
    | cons c cs => rw [sameList, sameList, first.alike, ih.alike]

theorem Call.indistinct {a b : Call}
    (parameters : Indistinct (equalOptions Parameters.same) a.parameters b.parameters)
    (errors : Indistinct NamedError.sameList a.errors b.errors)
    (description : Indistinct Value.same a.description b.description) :
    Indistinct Call.same a b where
  same := by simp [Call.same, parameters.same, errors.same, description.same]
  alike c := by simp only [Call.same, parameters.alike, errors.alike, description.alike]

/-! ### Definitions and documents -/

namespace Definition

variable {a b : ObjectBody} {call call' : Call}

theorem indistinct_record {key key' description description' : Value}
    (body : Indistinct ObjectBody.same a b) (hkey : Indistinct Value.same key key')
    (hdescription : Indistinct Value.same description description') :
    Indistinct Definition.same (.record a key description) (.record b key' description') where
  same := by simp [Definition.same, body.same, hkey.same, hdescription.same]
  alike c := by cases c <;> simp [Definition.same, body.alike, hkey.alike, hdescription.alike]

theorem indistinct_object (body : Indistinct ObjectBody.same a b) :
    Indistinct Definition.same (.object a) (.object b) where
  same := body.same
  alike c := by cases c <;> simp [Definition.same, body.alike]

theorem indistinct_query {output output' : Option Body} (hcall : Indistinct Call.same call call')
    (houtput : Indistinct (equalOptions Body.same) output output') :
    Indistinct Definition.same (.query call output) (.query call' output') where
  same := by simp [Definition.same, hcall.same, houtput.same]
  alike c := by cases c <;> simp [Definition.same, hcall.alike, houtput.alike]

theorem indistinct_procedure {input input' output output' : Option Body}
    (hcall : Indistinct Call.same call call')
    (hinput : Indistinct (equalOptions Body.same) input input')
    (houtput : Indistinct (equalOptions Body.same) output output') :
    Indistinct Definition.same (.procedure call input output)
      (.procedure call' input' output') where
  same := by simp [Definition.same, hcall.same, hinput.same, houtput.same]
  alike c := by cases c <;> simp [Definition.same, hcall.alike, hinput.alike, houtput.alike]

theorem indistinct_subscription {message message' : Option Body}
    (hcall : Indistinct Call.same call call')
    (hmessage : Indistinct (equalOptions Body.same) message message') :
    Indistinct Definition.same (.subscription call message)
      (.subscription call' message') where
  same := by simp [Definition.same, hcall.same, hmessage.same]
  alike c := by cases c <;> simp [Definition.same, hcall.alike, hmessage.alike]

theorem indistinct_token {v w : Value} (h : Indistinct Value.same v w) :
    Indistinct Definition.same (.token v) (.token w) where
  same := h.same
  alike c := by cases c <;> simp [Definition.same, h.alike]

theorem indistinct_field {f f' : Field} (h : Indistinct Field.same f f') :
    Indistinct Definition.same (.field f) (.field f') where
  same := h.same
  alike c := by cases c <;> simp [Definition.same, h.alike]

end Definition

theorem Document.indistinct {a b : Document} (id : a.id = b.id)
    (definitions : Indistinct (Entries.agree Definition.same) a.definitions b.definitions)
    (version : Indistinct Value.same a.version b.version)
    (revision : Indistinct Value.same a.revision b.revision)
    (description : Indistinct Value.same a.description b.description) :
    Indistinct Document.same a b where
  same := by
    simp [Document.same, id, definitions.same, version.same, revision.same, description.same]
  alike c := by
    simp only [Document.same, id, definitions.alike, version.alike, revision.alike,
      description.alike]

end Lexicon
