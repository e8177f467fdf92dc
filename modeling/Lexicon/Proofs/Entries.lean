import Lexicon.Entries
import Lexicon.Proofs.Outcome
import Mathlib.Data.List.Nodup
import Mathlib.Data.List.Perm.Subperm

/-!
# Looking up entries

What is found under a key in entries that were put together, filtered or mapped.
-/

namespace Lexicon.Entries

variable {α β : Type}

theorem find?_append (xs ys : Entries α) (key : String) :
    find? (xs ++ ys) key = (find? xs key).or (find? ys key) := by
  induction xs with
  | nil => rfl
  | cons e rest ih =>
    obtain ⟨k, v⟩ := e
    by_cases h : k = key
    · simp [find?, h]
    · simpa [find?, h] using ih

theorem find?_filter (p : String → Bool) (es : Entries α) (key : String) :
    find? (es.filter fun e => p e.1) key = if p key then find? es key else none := by
  induction es with
  | nil => simp [find?]
  | cons e rest ih =>
    obtain ⟨k, v⟩ := e
    by_cases h : k = key
    · subst h
      cases hp : p k with
      | true => simp [find?, hp]
      | false => simpa [hp] using ih
    · cases hp : p k with
      | true => simpa [find?, h, hp] using ih
      | false => simpa [find?, h, hp] using ih

theorem find?_eq_some_iff {es : Entries α} (h : (keys es).Nodup) {key : String} {value : α} :
    find? es key = some value ↔ (key, value) ∈ es := by
  refine ⟨mem_of_find?_eq_some, fun hmem => ?_⟩
  induction es with
  | nil => simp at hmem
  | cons e rest ih =>
    obtain ⟨k, v⟩ := e
    obtain ⟨fresh, hrest⟩ := List.nodup_cons.mp h
    rcases List.mem_cons.mp hmem with heq | hmem
    · obtain ⟨rfl, rfl⟩ := Prod.mk.inj heq
      simp [find?]
    · have hk : ¬ k = key := by
        rintro rfl
        exact fresh (List.mem_map.mpr ⟨_, hmem, rfl⟩)
      simpa [find?, hk] using ih hrest hmem

/-- Entries that are collected from a list, at most one from each member and under its own key, hold
nothing under another key. -/
theorem find?_collected_of_notMem {γ : Type} {key : γ → String} {R : γ → Option (String × α) → Prop}
    {xs : List γ} {ps : List (Option (String × α))} (h : List.Forall₂ R xs ps)
    (own : ∀ x e, R x (some e) → e.1 = key x) {k : String} (hk : k ∉ xs.map key) :
    find? (ps.filterMap id) k = none := by
  induction h with
  | nil => rfl
  | @cons x p xs ps hR _ ih =>
    rw [List.map_cons, List.mem_cons, not_or] at hk
    cases p with
    | none => simpa using ih hk.2
    | some e =>
      have other : ¬ e.1 = k := by
        rw [own x e hR]
        exact fun h => hk.1 h.symm
      simpa [find?, other] using ih hk.2

/-- Under the key of each member stands what was collected from it. -/
theorem find?_collected {γ : Type} {key : γ → String} {R : γ → Option (String × α) → Prop}
    {xs : List γ} {ps : List (Option (String × α))} (hnodup : (xs.map key).Nodup)
    (h : List.Forall₂ R xs ps) (own : ∀ x e, R x (some e) → e.1 = key x) :
    List.Forall₂ (fun x p => R x p ∧ find? (ps.filterMap id) (key x) = p.map Prod.snd) xs ps := by
  induction h with
  | nil => exact .nil
  | @cons x p xs ps hR hrest ih =>
    obtain ⟨fresh, hnodup⟩ := List.nodup_cons.mp hnodup
    refine .cons ⟨hR, ?_⟩ ((ih hnodup).imp_mem fun x' hx' p' _ h => ⟨h.1, ?_⟩)
    · cases p with
      | none => simpa using find?_collected_of_notMem hrest own fresh
      | some e => simp [find?, own x e hR]
    · cases p with
      | none => simpa using h.2
      | some e =>
        have other : ¬ e.1 = key x' := by
          rw [own x e hR]
          exact fun h => fresh (h ▸ List.mem_map_of_mem hx')
        simpa [find?, other] using h.2

/-- The keys of the collected entries are keys of the members, in their order. -/
theorem keys_collected {γ : Type} {key : γ → String} {R : γ → Option (String × α) → Prop}
    {xs : List γ} {ps : List (Option (String × α))} (h : List.Forall₂ R xs ps)
    (own : ∀ x e, R x (some e) → e.1 = key x) :
    (keys (ps.filterMap id)).Sublist (xs.map key) := by
  induction h with
  | nil => exact List.Sublist.slnil
  | @cons x p xs ps hR _ ih =>
    cases p with
    | none => exact ih.cons (key x)
    | some e =>
      rw [List.map_cons, ← own x e hR]
      exact ih.cons_cons e.1

theorem find?_filterMap {γ : Type} (key : γ → String) {collect : γ → Option (String × α)}
    {xs : List γ} (hnodup : (xs.map key).Nodup) (own : ∀ x e, collect x = some e → e.1 = key x)
    {x : γ} (hx : x ∈ xs) : find? (xs.filterMap collect) (key x) = (collect x).map Prod.snd := by
  have all : List.Forall₂ (fun x p => collect x = p) xs (xs.map collect) :=
    List.forall₂_map_right_iff.mpr (List.forall₂_same.mpr fun _ _ => rfl)
  obtain ⟨p, _, hp, hfound⟩ := (find?_collected hnodup all own).exists_right hx
  rw [List.filterMap_map] at hfound
  rw [hp]
  exact hfound

/-- An entry that is written is there in place of the first one under its key. -/
theorem mem_insert_iff {es : Entries α} {key : String} {value : α} {e : String × α} :
    e ∈ insert es key value ↔ e = (key, value) ∨ e ∈ es.eraseP fun e => e.1 = key := by
  induction es with
  | nil => simp [insert]
  | cons first rest ih =>
    obtain ⟨k, v⟩ := first
    by_cases same : k = key
    · simp [insert, same]
    · simp [insert, same, ih, or_left_comm]

theorem mem_insert {es : Entries α} {key : String} {value : α} {e : String × α}
    (h : e ∈ insert es key value) : e ∈ es ∨ e = (key, value) :=
  (mem_insert_iff.mp h).symm.imp_left List.mem_of_mem_eraseP

theorem nodup_keys_insert {es : Entries α} (h : (keys es).Nodup) (key : String) (value : α) :
    (keys (insert es key value)).Nodup := by
  rw [keys_insert]
  split_ifs with hmem
  · exact h
  · refine List.nodup_append.mpr ⟨h, by simp, ?_⟩
    rintro k hk _ hk' rfl
    exact hmem (List.mem_singleton.mp hk' ▸ hk)

theorem nodup_keys_merge {es : Entries α} (h : (keys es).Nodup) (writes : Entries α) :
    (keys (merge es writes)).Nodup := by
  induction writes generalizing es with
  | nil => exact h
  | cons w rest ih => exact ih (nodup_keys_insert h w.1 w.2)

/-- What is written was there before or is one of the writes. -/
theorem mem_merge {es writes : Entries α} {e : String × α} (h : e ∈ merge es writes) :
    e ∈ es ∨ e ∈ writes := by
  induction writes generalizing es with
  | nil => exact .inl h
  | cons w rest ih =>
    rcases ih h with h | h
    · rcases mem_insert h with h | rfl
      · exact .inl h
      · exact .inr List.mem_cons_self
    · exact .inr (List.mem_cons_of_mem _ h)

theorem keys_eq_of_forall₂ {xs : Entries α} {ys : Entries β}
    (h : List.Forall₂ (fun e m => m.1 = e.1) xs ys) : keys ys = keys xs := by
  induction h with
  | nil => rfl
  | cons same _ ih => rw [keys, keys, List.map_cons, List.map_cons, same, ← keys, ih, keys]

theorem mem_keys_of_mem {es : Entries α} {e : String × α} (h : e ∈ es) : e.1 ∈ keys es :=
  List.mem_map.mpr ⟨e, h, rfl⟩

theorem find?_eq_none_of_notMem {es : Entries α} {key : String} (h : key ∉ keys es) :
    find? es key = none := by
  rw [← Option.not_isSome_iff_eq_none]
  exact fun found => h (has_eq_true_iff.mp found)

/-- A name that was not seen before what follows, and is not seen in it, is not repeated. -/
theorem nodup_cons_of_fresh {γ : Type} {name : γ → String} {seen : Entries α} {x : γ}
    {rest : List γ} {value : α} (fresh : seen.find? (name x) = none)
    (later : (rest.map name).Nodup ∧
      ∀ y ∈ rest, (seen.insert (name x) value).find? (name y) = none) :
    ((x :: rest).map name).Nodup ∧ ∀ y ∈ x :: rest, seen.find? (name y) = none := by
  have apart : ∀ y ∈ rest, name x ≠ name y ∧ seen.find? (name y) = none := by
    intro y hy
    have unseen := later.2 y hy
    rw [find?_insert] at unseen
    split_ifs at unseen with same
    exact ⟨same, unseen⟩
  constructor
  · rw [List.map_cons, List.nodup_cons]
    refine ⟨fun repeated => ?_, later.1⟩
    obtain ⟨y, hy, same⟩ := List.mem_map.mp repeated
    exact (apart y hy).1 same.symm
  · rw [List.forall_mem_cons]
    exact ⟨fresh, fun y hy => (apart y hy).2⟩

/-- Writing keys that are all new appends the writes. -/
theorem merge_of_nodup {es writes : Entries α} (h : (keys (es ++ writes)).Nodup) :
    merge es writes = es ++ writes := by
  induction writes generalizing es with
  | nil => simp [merge]
  | cons w rest ih =>
    have fresh : w.1 ∉ keys es := by
      intro again
      rw [keys, List.map_append] at h
      exact List.disjoint_of_nodup_append h again List.mem_cons_self
    have written : insert es w.1 w.2 = es ++ [w] :=
      insert_of_find?_eq_none (find?_eq_none_of_notMem fresh) w.2
    rw [List.append_cons] at h ⊢
    rw [← ih h, ← written]
    rfl

/-- Writing keys that are all different yields the writes. -/
theorem ofList_of_nodup {es : Entries α} (h : (keys es).Nodup) : ofList es = es := by
  have appended : merge [] es = [] ++ es := merge_of_nodup (by simpa using h)
  exact appended

/-- Entries are read one by one, each under its own key. -/
theorem mapM_eq_ok_iff {ε : Type} {read : α → Except ε β} {es : Entries α} {ps : Entries β} :
    (es.mapM fun e => return (e.1, ← read e.2)) = .ok ps ↔
      List.Forall₂ (fun e p : String × _ => p.1 = e.1 ∧ read e.2 = .ok p.2) es ps := by
  rw [Except.mapM_eq_ok_iff]
  constructor
  · refine fun h => h.imp fun e p hp => ?_
    obtain ⟨x, hx, hp⟩ := Except.bind_eq_ok_iff.mp hp
    obtain rfl := Except.ok.inj hp
    exact ⟨rfl, hx⟩
  · rintro h
    refine h.imp ?_
    rintro e ⟨_, p⟩ ⟨rfl, hp⟩
    rw [hp]
    rfl

/-! ### Matching entries -/

section Matching

variable {R : α → β → Prop} {xs : Entries α} {ys : Entries β}

/-- As many entries with all the keys of entries whose keys are different have the same keys. -/
theorem keys_perm (distinct : (keys xs).Nodup) (length : xs.length = ys.length)
    (h : ∀ e ∈ xs, e.1 ∈ keys ys) : (keys xs).Perm (keys ys) := by
  have subset : keys xs ⊆ keys ys := by
    intro key hkey
    obtain ⟨e, he, rfl⟩ := List.mem_map.mp hkey
    exact h e he
  apply (distinct.subperm subset).perm_of_length_le
  rw [keys, keys, List.length_map, List.length_map]
  exact Nat.le_of_eq length.symm

/-- Where each entry has a match under its key among as many others, all others are matches. -/
theorem rel_find? (distinct : (keys xs).Nodup) (length : xs.length = ys.length)
    (h : ∀ e ∈ xs, ∃ y, find? ys e.1 = some y ∧ R e.2 y) (key : String) :
    Option.Rel R (find? xs key) (find? ys key) := by
  cases hx : find? xs key with
  | some x =>
    obtain ⟨y, hy, hxy⟩ := h _ (mem_of_find?_eq_some hx)
    rw [hy]
    exact .some hxy
  | none =>
    have perm : (keys xs).Perm (keys ys) := by
      apply keys_perm distinct length
      intro e he
      obtain ⟨y, hy, -⟩ := h e he
      exact mem_keys_of_mem (mem_of_find?_eq_some hy)
    have absent : key ∉ keys ys := by
      intro present
      have found := has_eq_true_iff.mpr (perm.mem_iff.mpr present)
      rw [has, hx] at found
      cases found
    rw [find?_eq_none_of_notMem absent]
    exact .none

/-- Writing the same entries keeps matches, if these match themselves. -/
theorem rel_find?_merge {R : α → α → Prop} {xs ys writes : Entries α}
    (h : ∀ key, Option.Rel R (find? xs key) (find? ys key)) (self : ∀ w ∈ writes, R w.2 w.2)
    (key : String) : Option.Rel R (find? (merge xs writes) key) (find? (merge ys writes) key) := by
  induction writes generalizing xs ys with
  | nil => exact h key
  | cons w rest ih =>
    apply ih
    · intro key'
      rw [find?_insert, find?_insert]
      split_ifs
      · exact .some (self w List.mem_cons_self)
      · exact h key'
    · intro w' hw'
      exact self w' (List.mem_cons_of_mem _ hw')

end Matching

end Lexicon.Entries
