import Lexicon.Proofs.Value.Same

/-!
# Values up to the order of entries

The order of the entries of an object, at any depth, is no part of what a value holds. Main
statements: the depth of a value does not depend on it, nor do the values that it is equal to, nor,
up to the order of entries again, what stands under a key; and decoded values that differ in nothing
else are equal.
-/

namespace Lexicon

namespace Entries

variable {α β : Type}

/-- Two entries under one key with related values. -/
inductive Under (R : α → β → Prop) : String × α → String × β → Prop
  | intro (key : String) {x : α} {y : β} (h : R x y) : Under R (key, x) (key, y)

section

variable {R : α → β → Prop} {xs zs : Entries α} {ys : Entries β}

theorem Under.key {e : String × α} {e' : String × β} (h : Under R e e') : e.1 = e'.1 := by
  cases h
  rfl

theorem Under.value {e : String × α} {e' : String × β} (h : Under R e e') : R e.2 e'.2 := by
  cases h
  assumption

theorem Under.imp {S : α → β → Prop} {e : String × α} {e' : String × β} (h : Under R e e')
    (himp : ∀ x y, R x y → S x y) : Under S e e' := by
  obtain ⟨key, h⟩ := h
  exact .intro key (himp _ _ h)

theorem Under.flip {e : String × α} {e' : String × β} (h : Under R e e') :
    Under (fun y x => R x y) e' e := by
  obtain ⟨key, h⟩ := h
  exact .intro key h

theorem keys_of_under (h : List.Forall₂ (Under R) xs ys) : keys xs = keys ys :=
  (keys_eq_of_forall₂ (h.imp fun _ _ under => under.key.symm)).symm

/-- What stands under a key of entries that are given in another order, and with other values. -/
theorem rel_find?_of_perm (distinct : (keys xs).Nodup) (order : xs.Perm zs)
    (entries : List.Forall₂ (Under R) zs ys) (key : String) :
    Option.Rel R (find? xs key) (find? ys key) := by
  have distinct' : (keys ys).Nodup := by
    rw [← keys_of_under entries]
    exact (order.map Prod.fst).nodup_iff.mp distinct
  apply rel_find? distinct (order.length_eq.trans entries.length_eq)
  intro e he
  obtain ⟨e', he', under⟩ := entries.exists_right (order.mem_iff.mp he)
  exact ⟨e'.2, (find?_eq_some_iff distinct').mpr (under.key ▸ he'), under.value⟩

/-- What is made of entries one by one is, of entries that are given in another order and with other
values, made in that other order. -/
theorem exists_of_perm {γ δ : Type} (made : String → α → γ → Prop) (made' : String → β → δ → Prop)
    {S : γ → δ → Prop} {as : Entries γ} (order : xs.Perm zs)
    (entries : List.Forall₂ (Under R) zs ys)
    (h : List.Forall₂ (fun e a : String × _ => a.1 = e.1 ∧ made e.1 e.2 a.2) xs as)
    (step : ∀ e ∈ xs, ∀ y a, R e.2 y → made e.1 e.2 a → ∃ b, made' e.1 y b ∧ S a b) :
    ∃ cs bs, List.Forall₂ (fun e b : String × _ => b.1 = e.1 ∧ made' e.1 e.2 b.2) ys bs ∧
      as.Perm cs ∧ List.Forall₂ (Under S) cs bs := by
  obtain ⟨cs, h, order'⟩ := List.perm_comp_forall₂ order.symm h
  replace step : ∀ e ∈ zs, ∀ y a, R e.2 y → made e.1 e.2 a → ∃ b, made' e.1 y b ∧ S a b :=
    fun e he => step e (order.mem_iff.mpr he)
  suffices ∃ bs, List.Forall₂ (fun e b : String × _ => b.1 = e.1 ∧ made' e.1 e.2 b.2) ys bs ∧
      List.Forall₂ (Under S) cs bs by
    obtain ⟨bs, hbs, under⟩ := this
    exact ⟨cs, bs, hbs, order'.symm, under⟩
  clear order order'
  induction entries generalizing cs with
  | nil =>
    cases h
    exact ⟨[], .nil, .nil⟩
  | cons under _ ih =>
    obtain ⟨key, related⟩ := under
    cases h with
    | @cons _ c _ _ first rest =>
      obtain ⟨_, c⟩ := c
      obtain ⟨rfl, first⟩ := first
      obtain ⟨here, later⟩ := List.forall_mem_cons.mp step
      obtain ⟨b, hb, hS⟩ := here _ _ related first
      obtain ⟨bs, hbs, under⟩ := ih _ rest later
      exact ⟨(_, b) :: bs, .cons ⟨rfl, hb⟩ hbs, .cons (.intro _ hS) under⟩

theorem filter_of_under (p : String → Bool) (h : List.Forall₂ (Under R) xs ys) :
    List.Forall₂ (Under R) (xs.filter fun e => p e.1) (ys.filter fun e => p e.1) := by
  induction h with
  | nil => exact .nil
  | @cons e e' _ _ under _ ih =>
    rw [List.filter_cons, List.filter_cons, under.key]
    split_ifs
    · exact .cons under ih
    · exact ih

end

end Entries

namespace Value

/-- The second value differs from the first at most in the order of the entries of objects, at any
depth. -/
inductive Reordered : Value → Value → Prop
  | refl (v : Value) : Reordered v v
  | list {xs ys : List Value} (items : List.Forall₂ Reordered xs ys) :
      Reordered (.list xs) (.list ys)
  | object {xs zs ys : Entries Value} (order : xs.Perm zs)
      (entries : List.Forall₂ (Entries.Under Reordered) zs ys) : Reordered (.object xs) (.object ys)

namespace Reordered

variable {v w : Value}

/-- Induction on how the parts were reordered. -/
@[induction_eliminator]
theorem induct {motive : ∀ v w, Reordered v w → Prop} (refl : ∀ v, motive v v (.refl v))
    (list : ∀ {xs ys : List Value} (items : List.Forall₂ Reordered xs ys),
      List.Forall₂ (fun x y => ∃ h, motive x y h) xs ys →
      motive (.list xs) (.list ys) (.list items))
    (object : ∀ {xs zs ys : Entries Value} (order : xs.Perm zs)
      (entries : List.Forall₂ (Entries.Under Reordered) zs ys),
      List.Forall₂ (Entries.Under fun x y => ∃ h, motive x y h) zs ys →
      motive (.object xs) (.object ys) (.object order entries))
    {v w : Value} (h : Reordered v w) : motive v w h :=
  -- the generated recursor has a motive of its own for items, for entries and for one entry
  @Reordered.rec motive (fun xs ys _ => List.Forall₂ (fun x y => ∃ h, motive x y h) xs ys)
    (fun es ms _ => List.Forall₂ (Entries.Under fun x y => ∃ h, motive x y h) es ms)
    (fun e m _ => Entries.Under (fun x y => ∃ h, motive x y h) e m) refl list object .nil
    (fun h _ ih ihs => .cons ⟨h, ih⟩ ihs) .nil (fun _ _ ih ihs => .cons ih ihs)
    (fun key _ _ h ih => .intro key ⟨h, ih⟩) v w h

private theorem depthOfItems_eq {xs ys : List Value}
    (h : List.Forall₂ (fun x y => x.depth = y.depth) xs ys) :
    depthOfItems xs = depthOfItems ys := by
  induction h with
  | nil => rfl
  | cons same _ ih => rw [depthOfItems, depthOfItems, same, ih]

private theorem depthOfEntries_eq_of_perm {es ms : Entries Value} (h : es.Perm ms) :
    depthOfEntries es = depthOfEntries ms := by
  induction h with
  | nil => rfl
  | cons _ _ ih => rw [depthOfEntries, depthOfEntries, ih]
  | swap =>
    simp only [depthOfEntries]
    exact max_left_comm _ _ _
  | trans _ _ ih ih' => exact ih.trans ih'

private theorem depthOfEntries_eq_of_under {es ms : Entries Value}
    (h : List.Forall₂ (Entries.Under fun x y => x.depth = y.depth) es ms) :
    depthOfEntries es = depthOfEntries ms := by
  induction h with
  | nil => rfl
  | cons under _ ih =>
    obtain ⟨_, same⟩ := under
    rw [depthOfEntries, depthOfEntries, same, ih]

theorem depth_eq (h : v.Reordered w) : v.depth = w.depth := by
  induction h with
  | refl => rfl
  | list _ ih =>
    rw [depth, depth, depthOfItems_eq (ih.imp fun _ _ h => h.2)]
  | object order _ ih =>
    rw [depth, depth, depthOfEntries_eq_of_perm order,
      depthOfEntries_eq_of_under (ih.imp fun _ _ under => under.imp fun _ _ h => h.2)]

private theorem sameItems_eq {xs ys : List Value}
    (h : List.Forall₂ (fun x y => ∀ c, x.same c = y.same c) xs ys) (cs : List Value) :
    sameItems xs cs = sameItems ys cs := by
  induction h generalizing cs with
  | nil => rfl
  | cons same _ ih =>
    cases cs with
    | nil => rw [sameItems, sameItems] <;> simp
    | cons c cs => rw [sameItems, sameItems, same, ih]

private theorem sameEntries_eq_of_perm {es ms : Entries Value} (h : es.Perm ms)
    (cs : Entries Value) : sameEntries es cs = sameEntries ms cs := by
  rw [Bool.eq_iff_iff, sameEntries_iff, sameEntries_iff]
  exact forall_congr' fun e => imp_congr_left h.mem_iff

private theorem sameEntries_eq_of_under {es ms : Entries Value}
    (h : List.Forall₂ (Entries.Under fun x y => ∀ c, x.same c = y.same c) es ms)
    (cs : Entries Value) : sameEntries es cs = sameEntries ms cs := by
  induction h with
  | nil => rfl
  | cons under _ ih =>
    obtain ⟨key, same⟩ := under
    rw [sameEntries, sameEntries, ih]
    simp only [same]

/-- Both values are equal to the same values. -/
theorem same_eq (h : v.Reordered w) (c : Value) : v.same c = w.same c := by
  induction h generalizing c with
  | refl => rfl
  | list _ ih =>
    cases c with
    | list cs => rw [same, same, sameItems_eq (ih.imp fun _ _ h => h.2)]
    | _ => simp [same, sameNumber, number?]
  | object order entries ih =>
    cases c with
    | object cs =>
      rw [same, same, order.length_eq, entries.length_eq, sameEntries_eq_of_perm order,
        sameEntries_eq_of_under (ih.imp fun _ _ under => under.imp fun _ _ h => h.2)]
    | _ => simp [same, sameNumber, number?]

theorem identical_eq (h : v.Reordered w) (c : Value) : v.identical c = w.identical c := by
  cases h with
  | refl => rfl
  | list items =>
    cases c with
    | list => exact (Reordered.list items).same_eq _
    | _ => rfl
  | object order entries =>
    cases c with
    | object => exact (Reordered.object order entries).same_eq _
    | _ => rfl

/-! ### Reordered values -/

theorem symm (h : v.Reordered w) : w.Reordered v := by
  induction h with
  | refl v => exact .refl v
  | list _ ih => exact .list (ih.flip.imp fun _ _ h => h.2)
  | object order _ ih =>
    obtain ⟨ts, under, order'⟩ := List.perm_comp_forall₂ order ih
    exact .object order'.symm (under.flip.imp fun _ _ under => under.flip.imp fun _ _ h => h.2)

theorem exists_of_object {es : Entries Value} (h : (Value.object es).Reordered w) :
    ∃ zs ms : Entries Value, w = .object ms ∧ es.Perm zs ∧
      List.Forall₂ (Entries.Under Reordered) zs ms := by
  cases h with
  | refl => exact ⟨es, es, rfl, .refl _, List.forall₂_same.mpr fun e _ => .intro e.1 (.refl e.2)⟩
  | object order entries => exact ⟨_, _, rfl, order, entries⟩

theorem exists_of_list {xs : List Value} (h : (Value.list xs).Reordered w) :
    ∃ ys, w = .list ys ∧ List.Forall₂ Reordered xs ys := by
  cases h with
  | refl => exact ⟨xs, rfl, List.forall₂_same.mpr fun x _ => .refl x⟩
  | list items => exact ⟨_, rfl, items⟩

theorem eq_of_str {t : String} (h : (Value.str t).Reordered w) : w = .str t := by
  cases h
  rfl

theorem str?_eq (h : v.Reordered w) : v.str? = w.str? := by
  cases h <;> rfl

theorem kind_eq (h : v.Reordered w) : v.kind = w.kind := by
  cases h <;> rfl

theorem isKey_eq (h : v.Reordered w) : v.isKey = w.isKey := by
  cases h <;> rfl

/-- What stands under a key is reordered as well. -/
theorem find? {es ms : Entries Value} (distinct : es.keys.Nodup)
    (h : (Value.object es).Reordered (.object ms)) (key : String) :
    Option.Rel Reordered (es.find? key) (ms.find? key) := by
  obtain ⟨zs, _, ⟨⟩, order, entries⟩ := h.exists_of_object
  exact Entries.rel_find?_of_perm distinct order entries key

theorem getValue {es ms : Entries Value} (distinct : es.keys.Nodup)
    (h : (Value.object es).Reordered (.object ms)) (key : String) :
    (es.getValue key).Reordered (ms.getValue key) := by
  rcases (h.find? distinct key).none_or_some with ⟨hx, hy⟩ | ⟨x, y, hx, hy, h⟩
  · rw [Entries.getValue, Entries.getValue, hx, hy]
    exact .refl _
  · rw [Entries.getValue, Entries.getValue, hx, hy]
    exact h

theorem decoded (h : v.Reordered w) (hv : v.Decoded) : w.Decoded := by
  induction h with
  | refl => exact hv
  | list _ ih =>
    apply Decoded.list
    intro y hy
    obtain ⟨x, hx, _, decoded⟩ := ih.exists_left hy
    exact decoded (hv.item x hx)
  | object order entries ih =>
    apply Decoded.object
    · rw [← Entries.keys_of_under entries]
      exact (order.map Prod.fst).nodup_iff.mp hv.distinct.self
    · intro m hm
      obtain ⟨e, he, under⟩ := ih.exists_left hm
      exact under.value.2 (hv.entry e (order.mem_iff.mpr he))

private theorem sameItems_right {xs ys : List Value}
    (h : List.Forall₂ (fun x y => ∀ c : Value, c.same x = c.same y) xs ys) (cs : List Value) :
    sameItems cs xs = sameItems cs ys := by
  induction h generalizing cs with
  | nil => rfl
  | cons same _ ih =>
    cases cs with
    | nil => rw [sameItems, sameItems] <;> simp
    | cons c cs => rw [sameItems, sameItems, same, ih]

private theorem sameEntries_right {es ms : Entries Value}
    (h : ∀ key, Option.Rel (fun x y => ∀ c : Value, c.same x = c.same y) (es.find? key)
      (ms.find? key)) (cs : Entries Value) : sameEntries cs es = sameEntries cs ms := by
  rw [Bool.eq_iff_iff, sameEntries_iff, sameEntries_iff]
  refine forall₂_congr fun e _ => ?_
  rcases (h e.1).none_or_some with ⟨hx, hy⟩ | ⟨x, y, hx, hy, same⟩
  · simp [hx, hy]
  · simp [hx, hy, same]

/-- The same values are equal to both. -/
theorem same_right (h : v.Reordered w) (distinct : v.DistinctKeys) (c : Value) :
    c.same v = c.same w := by
  induction h generalizing c with
  | refl => rfl
  | list _ ih =>
    cases c with
    | list cs =>
      rw [same, same]
      refine sameItems_right (ih.imp_mem ?_) cs
      rintro x hx y - ⟨_, same⟩
      exact same (distinct.item x hx)
    | _ => simp [same, sameNumber, number?]
  | object order entries ih =>
    cases c with
    | object cs =>
      rw [same, same, order.length_eq, entries.length_eq]
      refine congrArg _ (sameEntries_right (fun key => ?_) cs)
      rcases (Entries.rel_find?_of_perm distinct.self order ih key).none_or_some with
        ⟨hx, hy⟩ | ⟨x, y, hx, hy, _, same⟩
      · rw [hx, hy]
        exact .none
      · rw [hx, hy]
        exact .some (same (distinct.find? hx))
    | _ => simp [same, sameNumber, number?]

/-- Decoded values that differ only in the order of entries are equal. -/
theorem same (h : v.Reordered w) (hv : v.Decoded) : v.same w = true := by
  rw [h.same_eq]
  exact (h.decoded hv).same_self

end Reordered
end Value
end Lexicon
