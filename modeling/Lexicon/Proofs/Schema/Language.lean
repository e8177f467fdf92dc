import Lexicon.Proofs.Schema.Plain
import Lexicon.Schema.Language

/-!
# The schema of documents is plain

The check of a document follows no reference and makes no choice, so that it accepts the document or
finds a failure in it. Proved from the parts of the schema up.
-/

namespace Lexicon.Language

open Schema (Plain)

theorem numeric_unbounded : Bounds.Numeric {} := ⟨nofun, nofun⟩

@[simp] theorem plain_text : Schema.text.Plain :=
  .string numeric_unbounded numeric_unbounded

@[simp] theorem plain_nonNegative : nonNegative.Plain :=
  .integer ⟨fun _ h => Option.some.inj h ▸ rfl, nofun⟩

@[simp] theorem plain_anyInteger : anyInteger.Plain :=
  .integer numeric_unbounded

@[simp] theorem plain_array_iff {s : Schema} : (Schema.array s {}).Plain ↔ s.Plain :=
  ⟨fun | .array h _ => h, fun h => .array h numeric_unbounded⟩

@[simp] theorem plain_texts : texts.Plain :=
  plain_array_iff.mpr plain_text

/-- All schemas of a list are plain. -/
def AllPlain (fields : List (String × Schema)) : Prop :=
  ∀ e ∈ fields, e.2.Plain

@[simp] theorem allPlain_nil : AllPlain [] := nofun

@[simp] theorem allPlain_cons_iff {key : String} {s : Schema} {rest : List (String × Schema)} :
    AllPlain ((key, s) :: rest) ↔ s.Plain ∧ AllPlain rest :=
  List.forall_mem_cons

@[simp] theorem allPlain_append_iff {fields rest : List (String × Schema)} :
    AllPlain (fields ++ rest) ↔ AllPlain fields ∧ AllPlain rest :=
  List.forall_mem_append

@[simp] theorem plain_required_iff {s : Schema} : (Schema.required s).Plain ↔ s.Plain :=
  ⟨fun | .required h => h, .required⟩

@[simp] theorem plain_fields_iff {fields : List (String × Schema)} :
    (Schema.fields fields).Plain ↔ AllPlain fields :=
  ⟨fun | .object h _ => h, fun h => .object h nofun⟩

@[simp] theorem plain_shape_iff {type : String} {fields : List (String × Schema)} :
    (shape type fields).Plain ↔ AllPlain fields := by
  simp [shape, Plain.literal]

@[simp] theorem plain_tagged_iff {tag : String} {variants : List (String × Schema)}
    {fallback : Option Schema} :
    (Schema.tagged tag variants fallback).Plain ↔
      AllPlain variants ∧ ∀ s, fallback = some s → s.Plain :=
  ⟨fun | .tagged h h' => ⟨h, h'⟩, fun h => .tagged h.1 h.2⟩

@[simp] theorem allPlain_lengths : AllPlain lengths := by
  simp [lengths]

@[simp] theorem plain_unrecognizedField : unrecognizedField.Plain := by
  simp [unrecognizedField]

@[simp] theorem allPlain_primitiveTypes : AllPlain primitiveTypes := by
  simp [primitiveTypes, booleanField, integerField, stringField, unknownField, Plain.boolean,
    Plain.enum]

@[simp] theorem allPlain_itemTypes : AllPlain itemTypes := by
  simp [itemTypes, booleanField, integerField, stringField, unknownField, referenceField,
    unionField, Plain.boolean, Plain.enum]

@[simp] theorem plain_arrayField : arrayField.Plain := by
  simp [arrayField]

@[simp] theorem plain_field : field.Plain := by
  simp [field]

@[simp] theorem plain_objectDefinition : objectDefinition.Plain := by
  simp [objectDefinition, Plain.map plain_field]

@[simp] theorem plain_bodySchema : bodySchema.Plain := by
  simp [bodySchema, referenceField, unionField, Plain.boolean]

@[simp] theorem plain_body : body.Plain := by
  simp [body]

/-- A parameter of a call. -/
def parameter : Schema :=
  .tagged "type" (primitiveTypes ++ [("array", parameterArray)]) none

@[simp] theorem plain_parameter : parameter.Plain := by
  simp [parameter, parameterArray]

@[simp] theorem plain_parameters : parameters.Plain := by
  have properties : (Schema.map parameter none).Plain := .map plain_parameter
  simp only [parameter] at properties
  simp [parameters, properties]

theorem plain_document : document.Plain := by
  have main : AllPlain mainTypes := by
    simp [mainTypes, recordDefinition, queryDefinition, procedureDefinition,
      subscriptionDefinition, message, errors]
  have values : AllPlain valueTypes := by
    simp [valueTypes]
  have definitions : AllPlain [("main", Schema.tagged "type" (mainTypes ++ valueTypes) none)] := by
    simp [main, values]
  have others : ∀ s, some (Schema.tagged "type" valueTypes none) = some s → s.Plain := by
    rintro s ⟨⟩
    exact .tagged values nofun
  simp [document, Plain.literal, Plain.object definitions others,
    show (Schema.string { format := some .nsid }).Plain from
      .string numeric_unbounded numeric_unbounded]

end Lexicon.Language
