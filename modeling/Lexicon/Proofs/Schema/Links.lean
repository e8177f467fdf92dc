import Lexicon.Schema.Basic

/-!
# What a schema refers to

The references and the unions in a schema, wherever they stand. They are where a check goes on in
another definition.
-/

namespace Lexicon

/-- A place where a schema refers to other definitions. -/
inductive Link
  | ref (target : Reference)
  | union (targets : List Reference)
  deriving DecidableEq, Repr

/-- What a link may lead to. -/
def Link.targets : Link → List Reference
  | .ref target => [target]
  | .union targets => targets

namespace Schema

mutual

/-- The links in a schema. -/
def links : Schema → List Link
  | .ref target => [.ref target]
  | .union targets => [.union targets]
  | .array items _ => items.links
  | .map values none => values.links
  | .map values (some keys) => values.links ++ keys.links
  | .object fields none _ => linksOfFields fields
  | .object fields (some extra) _ => linksOfFields fields ++ extra.links
  | .required inner | .nullable inner | .withDefault inner _ => inner.links
  | .anyOf alternatives _ => linksOfAll alternatives
  | .tagged _ variants none => linksOfFields variants
  | .tagged _ variants (some fallback) => linksOfFields variants ++ fallback.links
  | _ => []

/-- The links in the schemas of some fields. -/
def linksOfFields : List (String × Schema) → List Link
  | [] => []
  | (_, s) :: rest => s.links ++ linksOfFields rest

/-- The links in some schemas. -/
def linksOfAll : List Schema → List Link
  | [] => []
  | s :: rest => s.links ++ linksOfAll rest

end

/-- The links of a field are among those of its object. -/
theorem links_subset_of_mem {fields : List (String × Schema)} {e : String × Schema}
    (he : e ∈ fields) : e.2.links ⊆ (Schema.fields fields).links := by
  have within : e.2.links ⊆ linksOfFields fields := by
    induction fields with
    | nil => exact absurd he List.not_mem_nil
    | cons first rest ih =>
      rcases List.mem_cons.mp he with rfl | he
      · exact List.subset_append_left _ _
      · exact List.subset_append_of_subset_right _ (ih he)
  exact within

theorem forall_links_map_iff {K : Link → Prop} {values : Schema} {keys : Option Schema} :
    (∀ link ∈ (Schema.map values keys).links, K link) ↔
      (∀ link ∈ values.links, K link) ∧ ∀ s ∈ keys, ∀ link ∈ s.links, K link := by
  cases keys <;> simp [links, or_imp, forall_and]

theorem forall_links_object_iff {K : Link → Prop} {fields : List (String × Schema)}
    {extra : Option Schema} {closed : Bool} :
    (∀ link ∈ (Schema.object fields extra closed).links, K link) ↔
      (∀ link ∈ linksOfFields fields, K link) ∧ ∀ s ∈ extra, ∀ link ∈ s.links, K link := by
  cases extra <;> simp [links, or_imp, forall_and]

theorem forall_links_tagged_iff {K : Link → Prop} {tag : String}
    {variants : List (String × Schema)} {fallback : Option Schema} :
    (∀ link ∈ (Schema.tagged tag variants fallback).links, K link) ↔
      (∀ link ∈ linksOfFields variants, K link) ∧ ∀ s ∈ fallback, ∀ link ∈ s.links, K link := by
  cases fallback <;> simp [links, or_imp, forall_and]

end Schema

end Lexicon
