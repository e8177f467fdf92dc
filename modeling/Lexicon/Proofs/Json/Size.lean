import Lexicon.Json.Reader
import Lexicon.Proofs.Outcome
import Mathlib.Tactic.SplitIfs

/-!
# The size of a value that was read

Reading goes forward through a text, and each entry of an object takes at least one character. Main
statement: a value that was read from a text has no more entries, at all depths together, than the
text has characters.
-/

namespace Lexicon

namespace Value

mutual

/-- The number of entries of all objects in a value. -/
def entryCount : Value → Nat
  | .list items | .tuple items => entryCountOfItems items
  | .object entries => entryCountOfEntries entries
  | _ => 0

/-- The number of entries of all objects in a list of items. -/
def entryCountOfItems : List Value → Nat
  | [] => 0
  | x :: xs => entryCount x + entryCountOfItems xs

/-- The number of entries of an object and of all objects in their values. -/
def entryCountOfEntries : List (String × Value) → Nat
  | [] => 0
  | (_, x) :: rest => 1 + entryCount x + entryCountOfEntries rest

end

theorem length_le_entryCountOfEntries (es : Entries Value) :
    es.length ≤ entryCountOfEntries es := by
  induction es with
  | nil => exact Nat.le_refl 0
  | cons e rest ih =>
    simp only [List.length_cons, entryCountOfEntries]
    omega

theorem entryCount_le_of_mem {e : String × Value} {es : Entries Value} (h : e ∈ es) :
    e.2.entryCount ≤ entryCountOfEntries es := by
  induction es with
  | nil => simp at h
  | cons f rest ih =>
    simp only [entryCountOfEntries]
    rcases List.mem_cons.mp h with rfl | h
    · omega
    · have := ih h
      omega

theorem entryCountOfItems_reverse (xs : List Value) :
    entryCountOfItems xs.reverse = entryCountOfItems xs := by
  have append (xs ys : List Value) :
      entryCountOfItems (xs ++ ys) = entryCountOfItems xs + entryCountOfItems ys := by
    induction xs with
    | nil => simp [entryCountOfItems]
    | cons x xs ih => simp only [List.cons_append, entryCountOfItems, ih, Nat.add_assoc]
  induction xs with
  | nil => rfl
  | cons x xs ih =>
    simp only [List.reverse_cons, append, ih, entryCountOfItems]
    omega

theorem entryCountOfEntries_insert_le (es : Entries Value) (key : String) (v : Value) :
    entryCountOfEntries (es.insert key v) ≤ entryCountOfEntries es + 1 + v.entryCount := by
  induction es with
  | nil => simp [Entries.insert, entryCountOfEntries]
  | cons e rest ih =>
    obtain ⟨k, x⟩ := e
    simp only [Entries.insert]
    split
    · simp only [entryCountOfEntries]
      omega
    · simp only [entryCountOfEntries]
      omega

end Value

namespace Json

theorem Cursor.length_advance_le (c : Cursor) (n : Nat) :
    (c.advance n).rest.length ≤ c.rest.length := by
  simp [advance]

theorem Cursor.length_skipGap_le (c : Cursor) : c.skipGap.rest.length ≤ c.rest.length :=
  c.length_advance_le _

theorem Cursor.length_advance_one {c : Cursor} {x : Char} {rest : List Char}
    (h : c.rest = x :: rest) : (c.advance 1).rest.length + 1 = c.rest.length := by
  simp [advance, h]

theorem length_of_string {fuel start : Nat} {cur : Cursor} {done : List Char} {s : String}
    {after : Cursor} (h : string fuel start cur done = .ok (s, after)) :
    after.rest.length ≤ cur.rest.length := by
  induction fuel generalizing cur done with
  | zero => simp [string, fail] at h
  | succ fuel ih =>
    have further {n : Nat} {done : List Char}
        (h : string fuel start (cur.advance n) done = .ok (s, after)) :
        after.rest.length ≤ cur.rest.length :=
      Nat.le_trans (ih h) (cur.length_advance_le n)
    unfold string at h
    repeat' split at h
    all_goals first
      | exact further h
      | (obtain ⟨rfl, rfl⟩ := Prod.mk.inj (Except.ok.inj h)
         exact cur.length_advance_le 1)
      | simp [fail] at h

/-- A scalar is a word or a number, and reading moves over it. -/
theorem exists_of_scalar {cur : Cursor} {v : Value} {after : Cursor}
    (h : scalar cur = .ok (v, after)) :
    (v = .null ∨ (∃ b, v = .bool b) ∨ (∃ n, v = .int n) ∨ ∃ x, v = .float x) ∧
      ∃ n, after = cur.advance n := by
  unfold scalar at h
  split at h
  · next word v' found =>
    obtain ⟨rfl, rfl⟩ := Prod.mk.inj (Except.ok.inj h)
    refine ⟨?_, _, rfl⟩
    have hmem := List.mem_of_find?_eq_some found
    simp only [words, List.mem_cons, Prod.mk.injEq, List.not_mem_nil, or_false] at hmem
    rcases hmem with ⟨_, rfl⟩ | ⟨_, rfl⟩ | ⟨_, rfl⟩ | ⟨_, rfl⟩ | ⟨_, rfl⟩ | ⟨_, rfl⟩ <;> simp
  · simp only [number] at h
    split_ifs at h
    all_goals first
      | (obtain ⟨rfl, rfl⟩ := Prod.mk.inj (Except.ok.inj h)
         exact ⟨by simp, _, rfl⟩)
      | simp [fail] at h

theorem size_of_scalar {cur : Cursor} {v : Value} {after : Cursor}
    (h : scalar cur = .ok (v, after)) :
    v.entryCount = 0 ∧ after.rest.length ≤ cur.rest.length := by
  obtain ⟨atom, n, rfl⟩ := exists_of_scalar h
  refine ⟨?_, cur.length_advance_le n⟩
  rcases atom with rfl | ⟨_, rfl⟩ | ⟨_, rfl⟩ | ⟨_, rfl⟩ <;> rfl

/-- Reading with a bound on the steps: the entries that were read take characters of the text. -/
structure Measures (fuel : Nat) : Prop where
  value {cur after : Cursor} {v : Value} (h : value fuel cur = .ok (v, after)) :
    v.entryCount + after.rest.length ≤ cur.rest.length
  items {cur after : Cursor} {done : List Value} {v : Value}
    (h : items fuel cur done = .ok (v, after)) :
    v.entryCount + after.rest.length ≤ Value.entryCountOfItems done + cur.rest.length
  entries {cur after : Cursor} {done : Entries Value} {v : Value}
    (h : entries fuel cur done = .ok (v, after)) :
    v.entryCount + after.rest.length ≤ Value.entryCountOfEntries done + cur.rest.length

namespace Measures

variable {fuel : Nat} (ih : Measures fuel) {cur after : Cursor} {v : Value}

include ih

theorem value_succ (h : Json.value (fuel + 1) cur = .ok (v, after)) :
    v.entryCount + after.rest.length ≤ cur.rest.length := by
  have first : (cur.advance 1).skipGap.rest.length ≤ cur.rest.length :=
    Nat.le_trans (Cursor.length_skipGap_le _) (cur.length_advance_le 1)
  simp only [Json.value] at h
  split at h
  · simp [fail] at h
  · obtain ⟨⟨s, after'⟩, hs, h⟩ := Except.bind_eq_ok_iff.mp h
    obtain ⟨rfl, rfl⟩ := Prod.mk.inj (Except.ok.inj h)
    have := length_of_string hs
    have := cur.length_advance_le 1
    simp only [Value.entryCount]
    omega
  · split at h
    · obtain ⟨rfl, rfl⟩ := Prod.mk.inj (Except.ok.inj h)
      have := (cur.advance 1).skipGap.length_advance_le 1
      simp only [Value.entryCount, Value.entryCountOfEntries]
      omega
    · have := ih.entries h
      simp only [Value.entryCountOfEntries] at this
      omega
  · split at h
    · obtain ⟨rfl, rfl⟩ := Prod.mk.inj (Except.ok.inj h)
      have := (cur.advance 1).skipGap.length_advance_le 1
      simp only [Value.entryCount, Value.entryCountOfItems]
      omega
    · have := ih.items h
      simp only [Value.entryCountOfItems] at this
      omega
  · obtain ⟨none, le⟩ := size_of_scalar h
    omega

theorem items_succ {done : List Value} (h : Json.items (fuel + 1) cur done = .ok (v, after)) :
    v.entryCount + after.rest.length ≤ Value.entryCountOfItems done + cur.rest.length := by
  simp only [Json.items] at h
  obtain ⟨⟨x, after'⟩, hx, h⟩ := Except.bind_eq_ok_iff.mp h
  have item := ih.value hx
  have gap := after'.length_skipGap_le
  have step := after'.skipGap.length_advance_le 1
  dsimp only at h
  split at h
  · obtain ⟨rfl, rfl⟩ := Prod.mk.inj (Except.ok.inj h)
    simp only [Value.entryCount, Value.entryCountOfItems_reverse, Value.entryCountOfItems]
    omega
  · have rest := ih.items h
    have gap' := (after'.skipGap.advance 1).length_skipGap_le
    simp only [Value.entryCountOfItems] at rest
    omega
  · simp [fail] at h

theorem entries_succ {done : Entries Value}
    (h : Json.entries (fuel + 1) cur done = .ok (v, after)) :
    v.entryCount + after.rest.length ≤ Value.entryCountOfEntries done + cur.rest.length := by
  simp only [Json.entries] at h
  split at h
  · next hquote =>
    obtain ⟨⟨k, afterKey⟩, hk, h⟩ := Except.bind_eq_ok_iff.mp h
    have quote := Cursor.length_advance_one hquote
    have key := length_of_string hk
    have gap := afterKey.length_skipGap_le
    dsimp only at h
    split at h
    · obtain ⟨⟨x, after'⟩, hx, h⟩ := Except.bind_eq_ok_iff.mp h
      have entry := ih.value hx
      have colon := (afterKey.skipGap.advance 1).length_skipGap_le
      have colon' := afterKey.skipGap.length_advance_le 1
      have gap' := after'.length_skipGap_le
      have step := after'.skipGap.length_advance_le 1
      have inserted := Value.entryCountOfEntries_insert_le done k x
      dsimp only at h
      split at h
      · obtain ⟨rfl, rfl⟩ := Prod.mk.inj (Except.ok.inj h)
        simp only [Value.entryCount]
        omega
      · have rest := ih.entries h
        have next := (after'.skipGap.advance 1).length_skipGap_le
        omega
      · simp [fail] at h
    · simp [fail] at h
  · simp [fail] at h

end Measures

theorem measures (fuel : Nat) : Measures fuel := by
  induction fuel with
  | zero =>
    refine ⟨fun h => ?_, fun h => ?_, fun h => ?_⟩
    · simp [value, fail] at h
    · simp [items, fail] at h
    · simp [entries, fail] at h
  | succ fuel ih => exact ⟨ih.value_succ, ih.items_succ, ih.entries_succ⟩

/-- What was read from a text has at most as many entries as the text has characters. -/
theorem entryCount_le_of_readAll {text : List Char} {v : Value} (h : readAll text = .ok v) :
    v.entryCount ≤ text.length := by
  obtain ⟨⟨x, after⟩, hx, h⟩ := Except.bind_eq_ok_iff.mp h
  dsimp only at h
  split at h
  · obtain rfl : x = v := Except.ok.inj h
    have := (measures _).value hx
    have := (Cursor.mk 0 text).length_skipGap_le
    dsimp only at this
    omega
  · simp [fail] at h

end Json

end Lexicon
