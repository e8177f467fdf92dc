import Lexicon.Proofs.Entries
import Lexicon.Record.Encode

/-!
# Written values

The written form of any value is JSON: no bytes, no tuple and no record is left in it at any depth.
Main statements: what is written is JSON, and JSON is written as it is.
-/

namespace Lexicon.Value

/-- Values that JSON can express. -/
inductive IsJson : Value → Prop
  | null : IsJson .null
  | bool (b : Bool) : IsJson (.bool b)
  | int (n : Int) : IsJson (.int n)
  | float (x : Binary64) : IsJson (.float x)
  | str (s : String) : IsJson (.str s)
  | list {items : List Value} (h : ∀ x ∈ items, IsJson x) : IsJson (.list items)
  | object {es : Entries Value} (h : ∀ e ∈ es, IsJson e.2) : IsJson (.object es)

theorem IsJson.entry {es : Entries Value} (h : (Value.object es).IsJson) :
    ∀ e ∈ es, e.2.IsJson := by
  cases h
  assumption

theorem IsJson.found {es : Entries Value} (h : (Value.object es).IsJson) {key : String} {v : Value}
    (hv : es.find? key = some v) : v.IsJson :=
  h.entry _ (Entries.mem_of_find?_eq_some hv)

/-! ### Items and entries -/

theorem encodeItems_eq_map (items : List Value) : encodeItems items = items.map encode := by
  induction items with
  | nil => rfl
  | cons x rest ih => rw [encodeItems, ih, List.map_cons]

theorem encodeEntries_eq_map (es : Entries Value) :
    encodeEntries es = es.map fun e => (e.1, e.2.encode) := by
  induction es with
  | nil => rfl
  | cons e rest ih =>
    obtain ⟨k, v⟩ := e
    rw [encodeEntries, ih, List.map_cons]

theorem find?_encodeEntries (es : Entries Value) (key : String) :
    Entries.find? (encodeEntries es) key = (es.find? key).map encode := by
  induction es with
  | nil => rfl
  | cons e rest ih =>
    obtain ⟨k, v⟩ := e
    by_cases h : k = key
    · simp [encodeEntries, Entries.find?, h]
    · simpa [encodeEntries, Entries.find?, h] using ih

/-- Nothing but null is written as null. -/
theorem encode_eq_null_iff {v : Value} : v.encode = .null ↔ v = .null := by
  cases v <;> simp [encode, encodedBytes]

/-! ### What is written -/

theorem isJson_encodedBytes (b : List UInt8) : (encodedBytes b).IsJson := by
  refine .object fun e he => ?_
  rw [List.mem_singleton.mp he]
  exact .str _

theorem isJson_writtenEntries (cls : RecordClass) {attributes : Entries Value}
    (h : ∀ e ∈ attributes, e.2.IsJson) : ∀ e ∈ writtenEntries cls attributes, e.2.IsJson := by
  intro e he
  obtain ⟨⟨key, attr⟩, _, hslot⟩ := List.mem_filterMap.mp he
  dsimp only at hslot
  split at hslot
  · split at hslot
    · simp at hslot
    · rw [← Option.some.inj hslot]
      exact .null
  · next v _ hv =>
    rw [← Option.some.inj hslot]
    exact h (attr, v) (Entries.mem_of_find?_eq_some hv)
  · simp at hslot

mutual

/-- Whatever is written is JSON. -/
theorem isJson_encode : ∀ v : Value, v.encode.IsJson
  | .null => .null
  | .bool b => .bool b
  | .int n => .int n
  | .float x => .float x
  | .str s => .str s
  | .bytes b => isJson_encodedBytes b
  | .list items | .tuple items => .list (isJson_encodeItems items)
  | .object es => .object (isJson_encodeEntries es)
  | .record cls attributes =>
    .object (isJson_writtenEntries cls (isJson_encodeEntries attributes))

theorem isJson_encodeItems : ∀ items : List Value, ∀ x ∈ encodeItems items, x.IsJson
  | [] => fun x hx => absurd hx List.not_mem_nil
  | x :: rest => by
    rw [encodeItems, List.forall_mem_cons]
    exact ⟨isJson_encode x, isJson_encodeItems rest⟩

theorem isJson_encodeEntries : ∀ es : List (String × Value), ∀ e ∈ encodeEntries es, e.2.IsJson
  | [] => fun e he => absurd he List.not_mem_nil
  | (_, x) :: rest => by
    rw [encodeEntries, List.forall_mem_cons]
    exact ⟨isJson_encode x, isJson_encodeEntries rest⟩

end

/-- JSON is written as it is. -/
theorem IsJson.encode_eq {v : Value} (h : v.IsJson) : v.encode = v := by
  induction h with
  | null | bool | int | float | str => rfl
  | @list items h ih =>
    rw [encode, encodeItems_eq_map, List.map_congr_left ih, List.map_id']
  | @object es h ih =>
    have same : ∀ e ∈ es, (e.1, e.2.encode) = e := fun e he => Prod.ext rfl (ih e he)
    rw [encode, encodeEntries_eq_map, List.map_congr_left same, List.map_id']

end Lexicon.Value
