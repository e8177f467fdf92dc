import Lexicon.Proofs.Json.Size
import Lexicon.Proofs.Record.Encode
import Lexicon.Proofs.Value.Parts

/-!
# What is read from a text

Reading makes nothing but JSON, and as the last of several entries with one key counts, no object
has a key twice. The induction is on the number of steps; what has been read of a list or an object
keeps the same property.
-/

namespace Lexicon

/-- A value that can be read from a text: JSON in which no object has a key twice. -/
structure Value.Decoded (v : Value) : Prop where
  json : v.IsJson
  distinct : v.DistinctKeys

namespace Value.Decoded

theorem list {xs : List Value} (h : ∀ x ∈ xs, x.Decoded) : (Value.list xs).Decoded :=
  ⟨.list fun x hx => (h x hx).json, .of_items fun x hx => (h x hx).distinct⟩

theorem object {es : Entries Value} (keys : es.keys.Nodup) (h : ∀ e ∈ es, e.2.Decoded) :
    (Value.object es).Decoded :=
  ⟨.object fun e he => (h e he).json, .of_entries keys fun e he => (h e he).distinct⟩

theorem item {xs : List Value} (h : (Value.list xs).Decoded) : ∀ x ∈ xs, x.Decoded := by
  intro x hx
  cases h.json with
  | list json => exact ⟨json x hx, h.distinct.item x hx⟩

theorem entry {es : Entries Value} (h : (Value.object es).Decoded) : ∀ e ∈ es, e.2.Decoded := by
  intro e he
  exact ⟨h.json.entry e he, h.distinct.entry e he⟩

theorem of_atom {v : Value} (json : v.IsJson) (object : ∀ es, v ≠ .object es)
    (list : ∀ xs, v ≠ .list xs) (tuple : ∀ xs, v ≠ .tuple xs) : v.Decoded :=
  ⟨json, .of_atom object list tuple⟩

theorem null : Value.null.Decoded :=
  .of_atom .null nofun nofun nofun

@[simp] theorem str (s : String) : (Value.str s).Decoded :=
  .of_atom (.str s) nofun nofun nofun

@[simp] theorem int (n : Int) : (Value.int n).Decoded :=
  .of_atom (.int n) nofun nofun nofun

@[simp] theorem float (x : Binary64) : (Value.float x).Decoded :=
  .of_atom (.float x) nofun nofun nofun

end Value.Decoded

@[simp] theorem Value.decoded_list_iff {xs : List Value} :
    (Value.list xs).Decoded ↔ ∀ x ∈ xs, x.Decoded :=
  ⟨Decoded.item, Decoded.list⟩

@[simp] theorem Value.decoded_object_iff {es : Entries Value} :
    (Value.object es).Decoded ↔ es.keys.Nodup ∧ ∀ e ∈ es, e.2.Decoded :=
  ⟨fun h => ⟨h.distinct.self, h.entry⟩, fun h => .object h.1 h.2⟩

namespace Json

theorem decoded_of_scalar {cur : Cursor} {v : Value} {after : Cursor}
    (h : scalar cur = .ok (v, after)) : v.Decoded := by
  obtain ⟨rfl | ⟨b, rfl⟩ | ⟨n, rfl⟩ | ⟨x, rfl⟩, -⟩ := exists_of_scalar h
  · exact .null
  · exact .of_atom (.bool b) nofun nofun nofun
  · exact .int n
  · exact .float x

/-- The entries that have been read have distinct keys and decoded values. -/
def DecodedEntries (es : Entries Value) : Prop :=
  es.keys.Nodup ∧ ∀ e ∈ es, e.2.Decoded

theorem DecodedEntries.insert {es : Entries Value} (h : DecodedEntries es) (key : String)
    {v : Value} (hv : v.Decoded) : DecodedEntries (es.insert key v) := by
  refine ⟨Entries.nodup_keys_insert h.1 key v, fun e he => ?_⟩
  rcases Entries.mem_insert he with he | rfl
  · exact h.2 e he
  · exact hv

/-- Reading with a bound on the steps makes decoded values. -/
structure Decodes (fuel : ℕ) : Prop where
  value {cur after : Cursor} {v : Value} (h : value fuel cur = .ok (v, after)) : v.Decoded
  items {cur after : Cursor} {done : List Value} {v : Value} (hdone : ∀ x ∈ done, x.Decoded)
    (h : items fuel cur done = .ok (v, after)) : v.Decoded
  entries {cur after : Cursor} {done : Entries Value} {v : Value} (hdone : DecodedEntries done)
    (h : entries fuel cur done = .ok (v, after)) : v.Decoded

namespace Decodes

variable {fuel : ℕ} (ih : Decodes fuel) {cur after : Cursor} {v : Value}

include ih

theorem value_succ (h : Json.value (fuel + 1) cur = .ok (v, after)) : v.Decoded := by
  simp only [Json.value] at h
  split at h
  · simp [fail] at h
  · obtain ⟨⟨s, after'⟩, -, h⟩ := Except.bind_eq_ok_iff.mp h
    obtain ⟨rfl, rfl⟩ := Prod.mk.inj (Except.ok.inj h)
    exact .str s
  · split at h
    · obtain ⟨rfl, rfl⟩ := Prod.mk.inj (Except.ok.inj h)
      exact .object (by simp [Entries.keys]) (List.forall_mem_nil _)
    · exact ih.entries ⟨by simp [Entries.keys], List.forall_mem_nil _⟩ h
  · split at h
    · obtain ⟨rfl, rfl⟩ := Prod.mk.inj (Except.ok.inj h)
      exact .list (List.forall_mem_nil _)
    · exact ih.items (List.forall_mem_nil _) h
  · exact decoded_of_scalar h

theorem items_succ {done : List Value} (hdone : ∀ x ∈ done, x.Decoded)
    (h : Json.items (fuel + 1) cur done = .ok (v, after)) : v.Decoded := by
  simp only [Json.items] at h
  obtain ⟨⟨x, after'⟩, hx, h⟩ := Except.bind_eq_ok_iff.mp h
  have all : ∀ y ∈ x :: done, y.Decoded := List.forall_mem_cons.mpr ⟨ih.value hx, hdone⟩
  dsimp only at h
  split at h
  · obtain ⟨rfl, rfl⟩ := Prod.mk.inj (Except.ok.inj h)
    exact .list fun y hy => all y (List.mem_reverse.mp hy)
  · exact ih.items all h
  · simp [fail] at h

theorem entries_succ {done : Entries Value} (hdone : DecodedEntries done)
    (h : Json.entries (fuel + 1) cur done = .ok (v, after)) : v.Decoded := by
  simp only [Json.entries] at h
  split at h
  · obtain ⟨⟨k, afterKey⟩, -, h⟩ := Except.bind_eq_ok_iff.mp h
    dsimp only at h
    split at h
    · obtain ⟨⟨x, after'⟩, hx, h⟩ := Except.bind_eq_ok_iff.mp h
      have all := hdone.insert k (ih.value hx)
      dsimp only at h
      split at h
      · obtain ⟨rfl, rfl⟩ := Prod.mk.inj (Except.ok.inj h)
        exact .object all.1 all.2
      · exact ih.entries all h
      · simp [fail] at h
    · simp [fail] at h
  · simp [fail] at h

end Decodes

theorem decodes (fuel : ℕ) : Decodes fuel := by
  induction fuel with
  | zero =>
    refine ⟨fun h => ?_, fun _ h => ?_, fun _ h => ?_⟩
    · simp [value, fail] at h
    · simp [items, fail] at h
    · simp [entries, fail] at h
  | succ fuel ih => exact ⟨ih.value_succ, ih.items_succ, ih.entries_succ⟩

/-- What is read from a text is JSON in which no object has a key twice. -/
theorem decoded_of_readAll {text : List Char} {v : Value} (h : readAll text = .ok v) :
    v.Decoded := by
  obtain ⟨⟨x, after⟩, hx, h⟩ := Except.bind_eq_ok_iff.mp h
  dsimp only at h
  split at h
  · obtain rfl : x = v := Except.ok.inj h
    exact (decodes _).value hx
  · simp [fail] at h

theorem decoded_of_read {text : List Char} {v : Value} (h : read text = .ok v) : v.Decoded := by
  unfold read at h
  split_ifs at h
  · simp [fail] at h
  · exact decoded_of_readAll h

end Json

end Lexicon
