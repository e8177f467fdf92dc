import Lexicon.Proofs.Value.Parts
import Lexicon.Value.Access

/-!
# Rearranged values

A value is rearranged when the entries of its objects change their places and its tuples become
lists. What stands under a key of an object is then rearranged, and nothing is added or lost.
-/

namespace Lexicon

namespace Value

/-- The second value has the parts of the first: the entries of objects may stand in another order,
and tuples may have become lists. -/
inductive Rearranged : Value → Value → Prop
  | refl (v : Value) : Rearranged v v
  | list {v : Value} {xs ys : List Value} (source : v = .list xs ∨ v = .tuple xs)
      (items : List.Forall₂ Rearranged xs ys) : Rearranged v (.list ys)
  | object {es ms : Entries Value} (origin : String × Value → Value)
      (members : ∀ m ∈ ms, (m.1, origin m) ∈ es) (parts : ∀ m ∈ ms, Rearranged (origin m) m.2)
      (keys : ∀ e ∈ es, e.1 ∈ ms.keys) : Rearranged (.object es) (.object ms)

/-- The entries of the second object are rearranged entries of the first, and none is missing. -/
structure RearrangedEntries (es ms : Entries Value) : Prop where
  members : ∀ m ∈ ms, ∃ x, (m.1, x) ∈ es ∧ Rearranged x m.2
  keys : ∀ e ∈ es, e.1 ∈ ms.keys

theorem RearrangedEntries.object {es ms : Entries Value} (h : RearrangedEntries es ms) :
    Rearranged (.object es) (.object ms) := by
  have origins : ∀ m : String × Value, ∃ x, m ∈ ms → (m.1, x) ∈ es ∧ Rearranged x m.2 := by
    intro m
    by_cases hm : m ∈ ms
    · obtain ⟨x, hx⟩ := h.members m hm
      exact ⟨x, fun _ => hx⟩
    · exact ⟨.null, fun hm' => absurd hm' hm⟩
  choose origin horigin using origins
  exact .object origin (fun m hm => (horigin m hm).1) (fun m hm => (horigin m hm).2) h.keys

theorem Rearranged.entries {es : Entries Value} {n : Value} (h : Rearranged (.object es) n) :
    ∃ ms, n = .object ms ∧ RearrangedEntries es ms := by
  cases h with
  | refl =>
    refine ⟨es, rfl, fun m hm => ⟨m.2, hm, .refl _⟩, fun e he => Entries.mem_keys_of_mem he⟩
  | list source => simp at source
  | object origin members parts keys =>
    exact ⟨_, rfl, fun m hm => ⟨origin m, members m hm, parts m hm⟩, keys⟩

theorem Rearranged.items {v n : Value} {xs : List Value} (h : Rearranged v n)
    (hv : v = .list xs ∨ v = .tuple xs) :
    ∃ ys, n.elements = .ok ys ∧ List.Forall₂ Rearranged xs ys := by
  cases h with
  | refl =>
    refine ⟨xs, ?_, List.forall₂_same.mpr fun x _ => .refl x⟩
    rcases hv with rfl | rfl <;> rfl
  | list source items =>
    have same := hv
    rcases source with rfl | rfl
    all_goals
      simp only [Value.list.injEq, Value.tuple.injEq, reduceCtorEq, or_false, false_or] at same
      exact ⟨_, rfl, same ▸ items⟩
  | object => simp at hv

theorem Rearranged.eq_str {t : String} {n : Value} (h : Rearranged (.str t) n) : n = .str t := by
  cases h with
  | refl => rfl
  | list source => simp at source

theorem Rearranged.eq_null {n : Value} (h : Rearranged .null n) : n = .null := by
  cases h with
  | refl => rfl
  | list source => simp at source

namespace RearrangedEntries

variable {es ms : Entries Value} (h : RearrangedEntries es ms) (distinct : es.keys.Nodup)
  {key : String}

include h distinct

theorem of_find? {y : Value} (hy : ms.find? key = some y) :
    ∃ x, es.find? key = some x ∧ Rearranged x y := by
  obtain ⟨x, hx, hxy⟩ := h.members _ (Entries.mem_of_find?_eq_some hy)
  exact ⟨x, (Entries.find?_eq_some_iff distinct).mpr hx, hxy⟩

theorem find? {x : Value} (hx : es.find? key = some x) :
    ∃ y, ms.find? key = some y ∧ Rearranged x y := by
  have present := h.keys _ (Entries.mem_of_find?_eq_some hx)
  obtain ⟨y, hy⟩ := Option.isSome_iff_exists.mp (Entries.has_eq_true_iff.mpr present)
  obtain ⟨x', hx', hxy⟩ := h.of_find? distinct hy
  rw [hx] at hx'
  exact ⟨y, hy, Option.some.inj hx' ▸ hxy⟩

end RearrangedEntries

end Value

end Lexicon
