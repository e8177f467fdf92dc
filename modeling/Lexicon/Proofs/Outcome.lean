import Lexicon.Trace
import Mathlib.Data.List.Forall2

/-!
# Outcomes of sequences

What must have gone well for a sequence of fallible steps to give a result: each step, and for a
list of steps the step of each member. The outcome of a traced computation is that of its steps
without their events.
-/

/-- Each member of the right list is related to one of the left list. -/
theorem List.Forall₂.exists_left {α β : Type} {R : α → β → Prop} {xs : List α} {ys : List β}
    (h : List.Forall₂ R xs ys) {y : β} (hy : y ∈ ys) : ∃ x ∈ xs, R x y := by
  induction h with
  | nil => simp at hy
  | cons hR _ ih =>
    rcases List.mem_cons.mp hy with rfl | hy
    · exact ⟨_, List.mem_cons_self, hR⟩
    · obtain ⟨x, hx, hxy⟩ := ih hy
      exact ⟨x, List.mem_cons_of_mem _ hx, hxy⟩

/-- Each member of the left list is related to one of the right list. -/
theorem List.Forall₂.exists_right {α β : Type} {R : α → β → Prop} {xs : List α} {ys : List β}
    (h : List.Forall₂ R xs ys) {x : α} (hx : x ∈ xs) : ∃ y ∈ ys, R x y :=
  (List.Forall₂.flip (a := ys) (b := xs) h).exists_left hx

/-- In the place of a member of the left list stands a related one of the right list. -/
theorem List.Forall₂.exists_getElem? {α β : Type} {R : α → β → Prop} {xs : List α} {ys : List β}
    (h : List.Forall₂ R xs ys) {i : Nat} {x : α} (hx : xs[i]? = some x) :
    ∃ y, R x y ∧ ys[i]? = some y := by
  induction h generalizing i with
  | nil => simp at hx
  | cons first _ ih =>
    cases i with
    | zero => exact ⟨_, Option.some.inj hx ▸ first, rfl⟩
    | succ i => exact ih hx

/-- A relation between members that implies another. -/
theorem List.Forall₂.imp_mem {α β : Type} {R S : α → β → Prop} {xs : List α} {ys : List β}
    (h : List.Forall₂ R xs ys) (himp : ∀ x ∈ xs, ∀ y ∈ ys, R x y → S x y) :
    List.Forall₂ S xs ys := by
  induction h with
  | nil => exact .nil
  | cons hR _ ih =>
    refine .cons (himp _ List.mem_cons_self _ List.mem_cons_self hR) (ih ?_)
    intro x hx y hy
    exact himp x (List.mem_cons_of_mem _ hx) y (List.mem_cons_of_mem _ hy)

/-- Lists are related through a list between them. -/
theorem List.Forall₂.comp {α β γ : Type} {R : α → β → Prop} {S : β → γ → Prop} {T : α → γ → Prop}
    {xs : List α} {ys : List β} {zs : List γ} (hxy : List.Forall₂ R xs ys)
    (hyz : List.Forall₂ S ys zs) (h : ∀ x, ∀ y ∈ ys, ∀ z, R x y → S y z → T x z) :
    List.Forall₂ T xs zs := by
  induction hxy generalizing zs with
  | nil =>
    cases hyz
    exact .nil
  | cons hR _ ih =>
    cases hyz with
    | cons hS rest =>
      refine .cons (h _ _ List.mem_cons_self _ hR hS) (ih rest ?_)
      intro x y hy
      exact h x y (List.mem_cons_of_mem _ hy)

/-- Related values that may be absent are both absent, or both present and related. -/
theorem Option.Rel.none_or_some {α β : Type} {R : α → β → Prop} {a : Option α} {b : Option β}
    (h : Option.Rel R a b) : a = .none ∧ b = .none ∨ ∃ x y, a = .some x ∧ b = .some y ∧ R x y := by
  cases h with
  | none => exact .inl ⟨rfl, rfl⟩
  | some h => exact .inr ⟨_, _, rfl, rfl, h⟩

/-- If each member of a list is related to something, so is the list. -/
theorem List.exists_forall₂ {α β : Type} {R : α → β → Prop} {xs : List α}
    (h : ∀ x ∈ xs, ∃ y, R x y) : ∃ ys, List.Forall₂ R xs ys := by
  induction xs with
  | nil => exact ⟨[], .nil⟩
  | cons x xs ih =>
    obtain ⟨y, hy⟩ := h x List.mem_cons_self
    obtain ⟨ys, hys⟩ := ih fun z hz => h z (List.mem_cons_of_mem _ hz)
    exact ⟨y :: ys, .cons hy hys⟩

/-- Relations that agree on related members relate related lists to the same lists. -/
theorem List.Forall₂.congr_left {α β γ : Type} {R : α → β → Prop} {A : β → γ → Prop}
    {B : α → γ → Prop} {xs : List α} {ys : List β} (h : List.Forall₂ R xs ys)
    (hAB : ∀ x y, R x y → ∀ z, A y z ↔ B x z) (zs : List γ) :
    List.Forall₂ A ys zs ↔ List.Forall₂ B xs zs := by
  induction h generalizing zs with
  | nil => simp
  | cons hR _ ih => simp only [List.forall₂_cons_left_iff, hAB _ _ hR, ih]

namespace Lexicon

variable {ε α β : Type}

theorem Except.pure_eq_ok (a : α) : (pure a : Except ε α) = .ok a := rfl

theorem Except.throw_eq_error (e : ε) : (throw e : Except ε α) = .error e := rfl

@[simp] theorem Except.ok_bind (a : α) (f : α → Except ε β) : Except.ok a >>= f = f a := rfl

@[simp] theorem Except.error_bind (e : ε) (f : α → Except ε β) :
    Except.error e >>= f = Except.error e := rfl

@[simp] theorem Except.ok_map (a : α) (f : α → β) :
    (f <$> Except.ok a : Except ε β) = Except.ok (f a) := rfl

@[simp] theorem Except.error_map (e : ε) (f : α → β) :
    f <$> (Except.error e : Except ε α) = Except.error e := rfl

theorem Except.exists_of_isOk {x : Except ε α} (h : x.isOk = true) : ∃ a, x = .ok a := by
  cases x with
  | error e => simp [Except.isOk, Except.toBool] at h
  | ok a => exact ⟨a, rfl⟩

theorem Except.eq_ok_of_toOption_eq_some {x : Except ε α} {a : α} (h : x.toOption = some a) :
    x = .ok a := by
  cases x with
  | error e => simp [Except.toOption] at h
  | ok b => rw [Option.some.inj h]

/-- A sequence gives a result exactly when both of its steps do. -/
theorem Except.bind_eq_ok_iff {x : Except ε α} {f : α → Except ε β} {b : β} :
    x >>= f = .ok b ↔ ∃ a, x = .ok a ∧ f a = .ok b := by
  cases x with
  | error e => simp [bind, Except.bind]
  | ok a => simp [bind, Except.bind]

/-- What a function makes of a result. -/
theorem Except.map_eq_ok_iff {x : Except ε α} {f : α → β} {b : β} :
    f <$> x = .ok b ↔ ∃ a, x = .ok a ∧ f a = b := by
  cases x with
  | error e => simp [Functor.map, Except.map]
  | ok a => simp [Functor.map, Except.map]

theorem Except.map_eq_error_iff {x : Except ε α} {f : α → β} {e : ε} :
    f <$> x = .error e ↔ x = .error e := by
  cases x <;> simp

/-- A step for each member of a list gives results exactly when each of them does. -/
theorem Except.mapM_eq_ok_iff {f : α → Except ε β} {xs : List α} {ys : List β} :
    xs.mapM f = .ok ys ↔ List.Forall₂ (fun x y => f x = .ok y) xs ys := by
  induction xs generalizing ys with
  | nil => cases ys <;> simp [Except.pure_eq_ok]
  | cons x xs ih =>
    simp only [List.mapM_cons, bind_eq_ok_iff, ih, List.forall₂_cons_left_iff]
    constructor
    · rintro ⟨y, hy, rest, hrest, h⟩
      exact ⟨y, rest, hy, hrest, (Except.ok.inj h).symm⟩
    · rintro ⟨y, rest, hy, hrest, rfl⟩
      exact ⟨y, hy, rest, hrest, rfl⟩

/-- A step for each member of a list fails as the first of them does that fails. -/
theorem Except.mapM_eq_error_iff {f : α → Except ε β} {xs : List α} {e : ε} :
    xs.mapM f = .error e ↔ ∃ before x after, xs = before ++ x :: after ∧
      (∀ y ∈ before, ∃ b, f y = .ok b) ∧ f x = .error e := by
  induction xs with
  | nil => simp [Except.pure_eq_ok]
  | cons x xs ih =>
    rw [List.mapM_cons]
    cases hx : f x with
    | error e' =>
      rw [error_bind]
      constructor
      · rintro ⟨⟩
        exact ⟨[], x, xs, rfl, nofun, hx⟩
      · rintro ⟨before, y, after, split, passed, hy⟩
        cases before with
        | nil =>
          obtain ⟨rfl, -⟩ := List.cons.inj split
          exact congrArg Except.error (Except.error.inj (hx.symm.trans hy))
        | cons z before =>
          obtain ⟨rfl, -⟩ := List.cons.inj split
          obtain ⟨b, hb⟩ := passed x List.mem_cons_self
          rw [hx] at hb
          cases hb
    | ok b =>
      have rest : (do let bs ← xs.mapM f; pure (b :: bs)) = (.error e : Except ε (List β)) ↔
          xs.mapM f = .error e := by
        cases xs.mapM f <;> simp [bind, Except.bind, Except.pure_eq_ok]
      rw [ok_bind, rest, ih]
      constructor
      · rintro ⟨before, y, after, rfl, passed, hy⟩
        exact ⟨x :: before, y, after, rfl, List.forall_mem_cons.mpr ⟨⟨b, hx⟩, passed⟩, hy⟩
      · rintro ⟨before, y, after, split, passed, hy⟩
        cases before with
        | nil =>
          obtain ⟨rfl, -⟩ := List.cons.inj split
          rw [hx] at hy
          cases hy
        | cons z before =>
          obtain ⟨rfl, rfl⟩ := List.cons.inj split
          exact ⟨before, y, after, rfl, (List.forall_mem_cons.mp passed).2, hy⟩

/-- What a list is mapped to consists of what its members are mapped to. -/
theorem Except.mem_of_mapM {f : α → Except ε β} {xs : List α} {ys : List β}
    (h : xs.mapM f = .ok ys) {y : β} : y ∈ ys ↔ ∃ x ∈ xs, f x = .ok y := by
  rw [Except.mapM_eq_ok_iff] at h
  constructor
  · exact fun hy => h.exists_left hy
  · rintro ⟨x, hx, made⟩
    obtain ⟨y', hy', made'⟩ := h.exists_right hx
    rwa [← Except.ok.inj (made'.symm.trans made)]

/-- If each step for a member of a list gives a result with a property, all of them do. -/
theorem Except.exists_mapM {f : α → Except ε β} {Q : β → Prop} {xs : List α}
    (h : ∀ x ∈ xs, ∃ y, f x = .ok y ∧ Q y) : ∃ ys, xs.mapM f = .ok ys ∧ ∀ y ∈ ys, Q y := by
  obtain ⟨ys, hys⟩ := List.exists_forall₂ h
  refine ⟨ys, mapM_eq_ok_iff.mpr (hys.imp fun _ _ hy => hy.1), fun y hy => ?_⟩
  obtain ⟨x, -, -, holds⟩ := hys.exists_left hy
  exact holds

theorem Except.mapM_congr {f g : α → Except ε β} {xs : List α} (h : ∀ x ∈ xs, f x = g x) :
    xs.mapM f = xs.mapM g := by
  induction xs with
  | nil => rfl
  | cons x xs ih =>
    rw [List.forall_mem_cons] at h
    rw [List.mapM_cons, List.mapM_cons, h.1, ih h.2]

/-- A step without a result for each member of a list goes well exactly when each of them does. -/
theorem Except.forM_eq_ok_iff {f : α → Except ε Unit} {xs : List α} :
    xs.forM f = .ok () ↔ ∀ x ∈ xs, f x = .ok () := by
  induction xs with
  | nil => simp [Except.pure_eq_ok]
  | cons x xs ih =>
    have step : (x :: xs).forM f = f x >>= fun _ => xs.forM f := rfl
    rw [step, bind_eq_ok_iff, List.forall_mem_cons, ← ih]
    exact ⟨fun ⟨_, hx, hxs⟩ => ⟨hx, hxs⟩, fun ⟨hx, hxs⟩ => ⟨(), hx, hxs⟩⟩

namespace Traced

instance : LawfulMonad Traced := LawfulMonad.mk' Traced
  (fun t => by
    obtain ⟨outcome, events⟩ := t
    show Traced.bind _ _ = _
    cases outcome <;> simp [Traced.bind])
  (fun a f => by
    show Traced.bind _ _ = _
    simp [Traced.bind, pure])
  (fun t f g => by
    obtain ⟨outcome, events⟩ := t
    show Traced.bind (Traced.bind _ _) _ = Traced.bind _ fun a => Traced.bind _ _
    cases outcome with
    | error e => rfl
    | ok a =>
      simp only [Traced.bind]
      cases (f a).outcome <;> simp)

@[simp] theorem outcome_lift (result : Except Fault α) :
    (liftM result : Traced α).outcome = result := rfl

@[simp] theorem outcome_fault (e : Fault) : (fault e : Traced α).outcome = .error e := rfl

theorem outcome_bind_eq_ok_iff {t : Traced α} {f : α → Traced β} {b : β} :
    (t >>= f).outcome = .ok b ↔ ∃ a, t.outcome = .ok a ∧ (f a).outcome = .ok b := by
  rw [outcome_bind]
  exact Except.bind_eq_ok_iff

theorem outcome_mapM (f : α → Traced β) (xs : List α) :
    (xs.mapM f).outcome = xs.mapM fun x => (f x).outcome := by
  induction xs with
  | nil => rfl
  | cons x xs ih =>
    simp only [List.mapM_cons, outcome_bind, ih, outcome_pure]
    rfl

theorem outcome_forM (f : α → Traced Unit) (xs : List α) :
    (xs.forM f).outcome = xs.forM fun x => (f x).outcome := by
  induction xs with
  | nil => rfl
  | cons x xs ih =>
    show (f x >>= fun _ => xs.forM f).outcome = (f x).outcome >>= fun _ => _
    rw [outcome_bind, ih]
    rfl

end Traced

/-! ### Faults -/

/-- A document that does not compile. -/
def Fault.IsCompile (e : Fault) : Prop :=
  ∃ c, e = .compile c

/-- Faults are not compared as such, since values are not, but those without data can be told. -/
instance Fault.instDecidableEqWrongType (e : Fault) : Decidable (e = .wrongType) :=
  decidable_of_iff (e.ctorIdx = Fault.wrongType.ctorIdx) <| by
    constructor
    · intro h
      cases e <;> first | rfl | cases h
    · rintro rfl
      rfl

instance Fault.instDecidableEqNoAttribute (e : Fault) : Decidable (e = .noAttribute) :=
  decidable_of_iff (e.ctorIdx = Fault.noAttribute.ctorIdx) <| by
    constructor
    · intro h
      cases e <;> first | rfl | cases h
    · rintro rfl
      rfl

instance Except.instDecidableEqError {e : ε} [∀ e', Decidable (e' = e)] :
    (x : Except ε α) → Decidable (x = .error e)
  | .ok _ => .isFalse nofun
  | .error e' => decidable_of_iff (e' = e) (by simp)

/-- Every fault that an outcome may end with has a property. -/
def FaultsAre (P : Fault → Prop) (x : Except Fault α) : Prop :=
  ∀ e, x = .error e → P e

namespace FaultsAre

variable {P Q : Fault → Prop} {x : Except Fault α}

@[simp] theorem ok (a : α) : FaultsAre P (.ok a) := nofun

@[simp] theorem pure (a : α) : FaultsAre P (Pure.pure a) := nofun

@[simp] theorem error_iff {e : Fault} : FaultsAre P (.error e : Except Fault α) ↔ P e :=
  ⟨fun h => h e rfl, fun h _ he => Except.error.inj he ▸ h⟩

theorem compile (c : CompileError) :
    FaultsAre Fault.IsCompile (.error (.compile c) : Except Fault α) :=
  error_iff.mpr ⟨c, rfl⟩

theorem imp (h : FaultsAre P x) (hPQ : ∀ e, P e → Q e) : FaultsAre Q x :=
  fun e he => hPQ e (h e he)

theorem bind {f : α → Except Fault β} (hx : FaultsAre P x)
    (hf : ∀ a, x = .ok a → FaultsAre P (f a)) : FaultsAre P (x >>= f) := by
  cases x with
  | ok a => exact hf a rfl
  | error e => exact error_iff.mpr (error_iff.mp hx)

theorem map (f : α → β) (hx : FaultsAre P x) : FaultsAre P (f <$> x) := by
  cases x with
  | ok a => exact ok _
  | error e => exact error_iff.mpr (error_iff.mp hx)

theorem mapM {f : α → Except Fault β} {xs : List α} (hf : ∀ x ∈ xs, FaultsAre P (f x)) :
    FaultsAre P (xs.mapM f) := by
  induction xs with
  | nil => exact ok _
  | cons x xs ih =>
    rw [List.mapM_cons]
    refine bind (hf x List.mem_cons_self) fun _ _ => ?_
    exact bind (ih fun y hy => hf y (List.mem_cons_of_mem _ hy)) fun _ _ => ok _

theorem forM {f : α → Except Fault Unit} {xs : List α} (hf : ∀ x ∈ xs, FaultsAre P (f x)) :
    FaultsAre P (xs.forM f) := by
  induction xs with
  | nil => exact ok _
  | cons x xs ih =>
    exact bind (hf x List.mem_cons_self) fun _ _ => ih fun y hy => hf y (List.mem_cons_of_mem _ hy)

theorem traced_bind {t : Traced α} {f : α → Traced β} (ht : FaultsAre P t.outcome)
    (hf : ∀ a, t.outcome = .ok a → FaultsAre P (f a).outcome) : FaultsAre P (t >>= f).outcome := by
  rw [Traced.outcome_bind]
  exact bind ht hf

end FaultsAre

end Lexicon
