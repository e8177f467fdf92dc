import Lexicon.Proofs.Check.Place
import Lexicon.Proofs.Registry.Capacity

/-!
# Verdicts of a registry

The verdict of a registry on a value is a function of what the registry answers, of the schema and
of the value: neither the number of steps that is allowed nor what was loaded before enters into it.
A part of a value is accepted at its place exactly when it is accepted alone.
-/

namespace Lexicon

theorem Lookup.alike_follow (look : Lookup) (steps : Nat) (target : Reference) (v : Value)
    (p q : Path) :
    Check.Alike (look.follow steps target v p).outcome (look.follow steps target v q).outcome := by
  induction steps generalizing target v p q with
  | zero => exact .same _
  | succ steps ih =>
    refine Check.alike.rel_bind (.same _) fun d => ?_
    exact Check.alike.rel_checkWith d.schema v trivial (fun t => ih t v p q)
      fun v' _ t p q _ => ih t v' p q

namespace Registry

variable (env : Surroundings)

/-- What a registry makes of a value by a schema: the normalized value or a fault. -/
def normalized (r : Registry) (schema : Schema) (v : Value) (path : Path) : Except Fault Value :=
  (schema.checkWith ((r.meaning env).follow (r.stepBound env v)) v path).outcome

theorem normalized_eq {r : Registry} {v : Value} {n : Nat} (hn : r.stepBound env v ≤ n)
    (schema : Schema) (path : Path) :
    r.normalized env schema v path =
      (schema.checkWith ((r.meaning env).follow n) v path).outcome :=
  r.outcome_checkWith_eq env (Nat.le_refl _) hn schema path

/-- A reference makes of a value what the definition it leads to makes of it. -/
theorem normalized_ref (r : Registry) (target : Reference) (v : Value) (path : Path) :
    r.normalized env (.ref target) v path =
      (r.meaning env target) >>= fun c => r.normalized env c.schema v path := by
  rw [normalized_eq env (Nat.le_succ _), Schema.checkWith, Lookup.follow, Check.outcome_bind,
    Check.outcome_lift]
  rfl

/-- A failure of the value as a result. -/
def verdictOf : Except Fault Value → Except Fault Schema.Verdict
  | .ok n => .ok (.ok n)
  | .error (.invalid f) => .ok (.error f)
  | .error e => .error e

theorem verdictOf_eq_accepted_iff {x : Except Fault Value} {n : Value} :
    verdictOf x = .ok (.ok n) ↔ x = .ok n := by
  unfold verdictOf
  split <;> simp

theorem verdictOf_eq_refused_iff {x : Except Fault Value} {f : Failure} :
    verdictOf x = .ok (.error f) ↔ x = .error (.invalid f) := by
  cases x with
  | ok n => simp [verdictOf]
  | error e => cases e <;> simp [verdictOf]

theorem verdictOf_eq_error_iff {x : Except Fault Value} {e : Fault} :
    verdictOf x = .error e ↔ x = .error e ∧ ∀ f, e ≠ .invalid f := by
  unfold verdictOf
  split
  · simp
  · next f =>
    simp only [reduceCtorEq, Except.error.injEq, false_iff, not_and]
    exact fun same proper => proper f same.symm
  · next proper =>
    simp only [Except.error.injEq]
    constructor
    · rintro rfl
      exact ⟨rfl, fun f same => proper f same⟩
    · exact And.left

/-- An outcome that is a result or a failure of the value. -/
def Settled {α : Type} (outcome : Except Fault α) : Prop :=
  ∀ e, outcome = .error e → ∃ f, e = .invalid f

@[simp] theorem Settled.ok {α : Type} (a : α) : Settled (.ok a) := by
  intro e he
  simp at he

theorem Settled.alike {α : Type} {x y : Except Fault α} (h : Check.Alike x y) (hx : Settled x) :
    Settled y := by
  cases h with
  | same => exact hx
  | invalid f g => exact fun e he => ⟨g, (Except.error.inj he).symm⟩

theorem Settled.map {α β : Type} {f : α → β} {x : Except Fault α} (hx : Settled x) :
    Settled (f <$> x) :=
  FaultsAre.map f hx

theorem Settled.mapM {α β : Type} {f : α → Except Fault β} {xs : List α}
    (h : ∀ x ∈ xs, Settled (f x)) : Settled (xs.mapM f) :=
  FaultsAre.mapM h

theorem settled_iff_exists_verdictOf {x : Except Fault Value} :
    Settled x ↔ ∃ verdict, verdictOf x = .ok verdict := by
  constructor
  · intro h
    cases x with
    | ok n => exact ⟨_, rfl⟩
    | error e =>
      obtain ⟨f, rfl⟩ := h e rfl
      exact ⟨_, rfl⟩
  · rintro ⟨verdict, h⟩ e rfl
    cases e with
    | invalid f => exact ⟨f, rfl⟩
    | _ => simp [verdictOf] at h

theorem outcome_attempt_eq_verdictOf (check : Check Unit Value) :
    (Check.attempt check).outcome = verdictOf check.outcome := by
  rw [Check.outcome_attempt]
  rcases check.outcome with e | n
  · cases e <;> rfl
  · rfl

/-- The verdict of a registry on a value. -/
theorem fst_run_verdict (schema : Schema) (v : Value) (s : Store) :
    ((verdict env schema v).run s).1 = verdictOf (s.registry.normalized env schema v []) := by
  rw [(run_verdict env schema v s).1, Schema.verdict, outcome_attempt_eq_verdictOf, normalized]

theorem alike_normalized (r : Registry) (schema : Schema) (v : Value) (p q : Path) :
    Check.Alike (r.normalized env schema v p) (r.normalized env schema v q) :=
  Check.alike.rel_checkWith schema v trivial (fun t => Lookup.alike_follow _ _ t v p q)
    fun v' _ t p q _ => Lookup.alike_follow _ _ t v' p q

/-- What registries make of values depends on their answers alone. -/
theorem normalized_congr {env' : Surroundings} {r r' : Registry}
    (h : r'.meaning env' = r.meaning env) (schema : Schema) (v : Value) (path : Path) :
    r'.normalized env' schema v path = r.normalized env schema v path := by
  rw [normalized_eq env' (Nat.le_max_right (r.stepBound env v) (r'.stepBound env' v)), h,
    ← normalized_eq env (Nat.le_max_left _ _)]

theorem stepBound_mono (r : Registry) {x v : Value} (h : x.depth ≤ v.depth) :
    r.stepBound env x ≤ r.stepBound env v :=
  Nat.mul_le_mul_right _ (Nat.succ_le_succ h)

end Registry

end Lexicon
