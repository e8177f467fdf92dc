import Lexicon.Path
import Lexicon.Proofs.Entries

/-!
# Parts of a value

A path leads to a part of a value. A condition on objects that holds of every object part of a value
holds of every object part of its parts. Decoded values have distinct keys at every place; there
each entry of an object is what its key leads to.
-/

namespace Lexicon

variable {P : Entries Value → Prop}

/-! ### Following a path -/

@[simp] theorem Path.follow?_nil (v : Value) : Path.follow? [] v = some v := rfl

@[simp] theorem Path.follow?_key (k : String) (rest : Path) (es : Entries Value) :
    Path.follow? (.key k :: rest) (.object es) =
      (Entries.find? es k).bind (Path.follow? rest) := rfl

@[simp] theorem Path.follow?_index_list (i : Nat) (rest : Path) (xs : List Value) :
    Path.follow? (.index i :: rest) (.list xs) = xs[i]?.bind (Path.follow? rest) := rfl

@[simp] theorem Path.follow?_index_tuple (i : Nat) (rest : Path) (xs : List Value) :
    Path.follow? (.index i :: rest) (.tuple xs) = xs[i]?.bind (Path.follow? rest) := rfl

/-- No step leads out of a text. -/
@[simp] theorem Path.follow?_str_cons (step : Segment) (rest : Path) (s : String) :
    Path.follow? (step :: rest) (.str s) = none := by
  cases step <;> rfl

/-- Where a path leads, each of its beginnings leads. -/
theorem Path.isSome_follow?_of_append {p q : Path} {v : Value}
    (h : (Path.follow? (p ++ q) v).isSome) : (Path.follow? p v).isSome := by
  rw [Path.follow?_append] at h
  cases reached : Path.follow? p v with
  | none => simp [reached] at h
  | some x => rfl

/-! ### Conditions on every object -/

/-- A condition that holds of every object that is a part of a value. -/
def Value.EveryObject (P : Entries Value → Prop) (v : Value) : Prop :=
  ∀ (path : Path) (entries : Entries Value),
    Path.follow? path v = some (.object entries) → P entries

namespace Value.EveryObject

theorem self {es : Entries Value} (h : (Value.object es).EveryObject P) : P es :=
  h [] es rfl

theorem part {v x : Value} {path : Path} (h : v.EveryObject P)
    (hx : Path.follow? path v = some x) : x.EveryObject P := by
  intro rest es hes
  apply h (path ++ rest) es
  rw [Path.follow?_append, hx, Option.bind_some, hes]

theorem find? {es : Entries Value} {k : String} {x : Value} (h : (Value.object es).EveryObject P)
    (hx : Entries.find? es k = some x) : x.EveryObject P := by
  have reached : Path.follow? [.key k] (.object es) = some x := by
    rw [Path.follow?_key, hx]
    rfl
  exact h.part reached

theorem item {xs : List Value} (h : (Value.list xs).EveryObject P) :
    ∀ x ∈ xs, x.EveryObject P := by
  intro x hx
  obtain ⟨i, hi⟩ := List.mem_iff_getElem?.mp hx
  have reached : Path.follow? [.index i] (.list xs) = some x := by
    rw [Path.follow?_index_list, hi]
    rfl
  exact h.part reached

/-! A value without parts, and values put together from parts. -/

theorem of_atom {v : Value} (object : ∀ es, v ≠ .object es) (list : ∀ xs, v ≠ .list xs)
    (tuple : ∀ xs, v ≠ .tuple xs) : v.EveryObject P := by
  intro path es hes
  cases path with
  | nil => exact absurd (Option.some.inj hes) (object es)
  | cons step rest => cases step <;> cases v <;> simp_all [Path.follow?]

theorem of_items {xs : List Value} (h : ∀ x ∈ xs, x.EveryObject P) :
    (Value.list xs).EveryObject P := by
  intro path es hes
  cases path with
  | nil => simp at hes
  | cons step rest =>
    cases step with
    | key k => simp [Path.follow?] at hes
    | index i =>
      obtain ⟨x, hx, reached⟩ := Option.bind_eq_some_iff.mp hes
      exact h x (List.mem_of_getElem? hx) rest es reached

theorem of_entries {es : Entries Value} (self : P es)
    (h : ∀ e ∈ es, e.2.EveryObject P) : (Value.object es).EveryObject P := by
  intro path ms hms
  cases path with
  | nil =>
    obtain rfl : es = ms := by simpa using hms
    exact self
  | cons step rest =>
    cases step with
    | index i => simp [Path.follow?] at hms
    | key k =>
      obtain ⟨x, hx, reached⟩ := Option.bind_eq_some_iff.mp hms
      exact h (k, x) (Entries.mem_of_find?_eq_some hx) rest ms reached

end Value.EveryObject

/-! ### Lists of objects -/

namespace Value

mutual

/-- The objects that a value consists of. -/
def objects : Value → List (Entries Value)
  | .object es => es :: objectsOfEntries es
  | .list xs | .tuple xs => objectsOfItems xs
  | _ => []

/-- The objects that items consist of. -/
def objectsOfItems : List Value → List (Entries Value)
  | [] => []
  | x :: xs => objects x ++ objectsOfItems xs

/-- The objects that the values of entries consist of. -/
def objectsOfEntries : List (String × Value) → List (Entries Value)
  | [] => []
  | (_, x) :: rest => objects x ++ objectsOfEntries rest

end

theorem mem_objectsOfItems {x : Value} {xs : List Value} (hx : x ∈ xs) {es : Entries Value}
    (h : es ∈ x.objects) : es ∈ objectsOfItems xs := by
  induction xs with
  | nil => simp at hx
  | cons y rest ih =>
    rcases List.mem_cons.mp hx with rfl | hx
    · exact List.mem_append_left _ h
    · exact List.mem_append_right _ (ih hx)

theorem mem_objectsOfEntries {e : String × Value} {entries : List (String × Value)}
    (he : e ∈ entries) {es : Entries Value} (h : es ∈ e.2.objects) :
    es ∈ objectsOfEntries entries := by
  induction entries with
  | nil => simp at he
  | cons first rest ih =>
    rcases List.mem_cons.mp he with rfl | he
    · exact List.mem_append_left _ h
    · exact List.mem_append_right _ (ih he)

/-- Every object that a path leads to is listed. -/
theorem mem_objects_of_follow? {path : Path} {v : Value} {es : Entries Value}
    (h : Path.follow? path v = some (.object es)) : es ∈ v.objects := by
  induction path generalizing v with
  | nil =>
    obtain rfl := Option.some.inj h
    exact List.mem_cons_self
  | cons step rest ih =>
    cases step with
    | key k =>
      cases v with
      | object entries =>
        obtain ⟨x, hx, reached⟩ := Option.bind_eq_some_iff.mp h
        exact List.mem_cons_of_mem _
          (mem_objectsOfEntries (Entries.mem_of_find?_eq_some hx) (ih reached))
      | _ => simp [Path.follow?] at h
    | index i =>
      cases v with
      | list xs | tuple xs =>
        obtain ⟨x, hx, reached⟩ := Option.bind_eq_some_iff.mp h
        exact mem_objectsOfItems (List.mem_of_getElem? hx) (ih reached)
      | _ => simp [Path.follow?] at h

/-- A condition that holds of all listed objects holds of every object. -/
theorem EveryObject.of_objects {v : Value} (h : ∀ es ∈ v.objects, P es) : v.EveryObject P :=
  fun _ es reached => h es (mem_objects_of_follow? reached)

end Value

/-! ### Distinct keys -/

/-- No object of a value has two entries under one key. -/
def Value.DistinctKeys (v : Value) : Prop :=
  v.EveryObject fun es => (Entries.keys es).Nodup

theorem Value.distinctKeys_str (s : String) : (Value.str s).DistinctKeys :=
  .of_atom nofun nofun nofun

/-- An entry of an object is what its key leads to. -/
theorem Value.DistinctKeys.follow?_entry {es : Entries Value} {e : String × Value}
    (h : (Value.object es).DistinctKeys) (he : e ∈ es) :
    Path.follow? [.key e.1] (.object es) = some e.2 := by
  have found : Entries.find? es e.1 = some e.2 := (Entries.find?_eq_some_iff h.self).mpr he
  rw [Path.follow?_key, found]
  rfl

theorem Value.DistinctKeys.entry {es : Entries Value} (h : (Value.object es).DistinctKeys) :
    ∀ e ∈ es, e.2.DistinctKeys :=
  fun _ he => h.part (h.follow?_entry he)

end Lexicon
