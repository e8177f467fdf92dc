/-!
# Ordered entries

A list of keyed entries in the order in which the keys first appeared. Writing to a key that is
present replaces the value in place; writing to a new key appends it. Main statements: what is
looked up after a write, and the keys after a write.
-/

namespace Lexicon

/-- Keyed values in order. -/
abbrev Entries (α : Type) := List (String × α)

namespace Entries

variable {α β : Type}

/-- The keys in order. -/
def keys (es : Entries α) : List String :=
  es.map Prod.fst

/-- The value of a key. -/
def find? (es : Entries α) (key : String) : Option α :=
  match es with
  | [] => none
  | (k, v) :: rest => if k = key then some v else find? rest key

/-- Whether a key is present. -/
def has (es : Entries α) (key : String) : Bool :=
  (find? es key).isSome

/-- Writes a key: in place if it is present, at the end otherwise. -/
def insert (es : Entries α) (key : String) (value : α) : Entries α :=
  match es with
  | [] => [(key, value)]
  | (k, v) :: rest => if k = key then (k, value) :: rest else (k, v) :: insert rest key value

/-- The entries of a list of writes: the first position and the last value of each key. -/
def ofList (writes : List (String × α)) : Entries α :=
  writes.foldl (fun es w => insert es w.1 w.2) []

/-- Writes every entry of the second argument. -/
def merge (es writes : Entries α) : Entries α :=
  writes.foldl (fun es w => insert es w.1 w.2) es

/-- The same keys with other values. -/
def mapValues (f : α → β) (es : Entries α) : Entries β :=
  es.map fun e => (e.1, f e.2)

/-- A key that was written holds its new value, and every other key what it held before. -/
theorem find?_insert (es : Entries α) (key k : String) (value : α) :
    find? (insert es key value) k = if key = k then some value else find? es k := by
  induction es with
  | nil => simp [insert, find?]
  | cons e rest ih =>
    obtain ⟨k', v'⟩ := e
    simp only [insert]
    split
    · next h =>
      subst h
      by_cases hk : k' = k <;> simp [find?, hk]
    · next h =>
      simp only [find?, ih]
      by_cases hk : k' = k
      · have : ¬ key = k := fun h' => h (hk.trans h'.symm)
        simp [hk, this]
      · simp [hk]

/-- Writing to a new key appends the entry. -/
theorem insert_of_find?_eq_none {es : Entries α} {key : String} (h : find? es key = none)
    (value : α) : insert es key value = es ++ [(key, value)] := by
  induction es with
  | nil => rfl
  | cons e rest ih =>
    obtain ⟨k, v⟩ := e
    by_cases hk : k = key
    · simp [find?, hk] at h
    · simp [find?, hk] at h
      simp [insert, hk, ih h]

/-- Writing to a present key keeps the keys; writing to a new key appends it. -/
theorem keys_insert (es : Entries α) (key : String) (value : α) :
    keys (insert es key value) = if key ∈ keys es then keys es else keys es ++ [key] := by
  induction es with
  | nil => simp [insert, keys]
  | cons e rest ih =>
    obtain ⟨k, v⟩ := e
    simp only [insert]
    split
    · next h => subst h; simp [keys]
    · next h =>
      have hk : ¬ key = k := fun h' => h h'.symm
      simp only [keys, List.map_cons, List.mem_cons, hk, false_or] at ih ⊢
      by_cases hm : key ∈ List.map Prod.fst rest <;> simp [ih, hm]

/-- A key is present exactly when it is one of the keys. -/
theorem has_eq_true_iff {es : Entries α} {key : String} : has es key = true ↔ key ∈ keys es := by
  induction es with
  | nil => simp [has, find?, keys]
  | cons e rest ih =>
    obtain ⟨k, v⟩ := e
    by_cases h : k = key
    · simp [has, find?, keys, h]
    · have h' : ¬ key = k := fun e => h e.symm
      simpa [has, find?, keys, h, h'] using ih

/-- What is found under a key is one of the entries. -/
theorem mem_of_find?_eq_some {es : Entries α} {key : String} {value : α}
    (h : find? es key = some value) : (key, value) ∈ es := by
  induction es with
  | nil => simp [find?] at h
  | cons e rest ih =>
    obtain ⟨k, v⟩ := e
    by_cases hk : k = key
    · simp [find?, hk] at h
      simp [hk, h]
    · simp [find?, hk] at h
      exact List.mem_cons_of_mem _ (ih h)

end Entries

end Lexicon
