import Lexicon.Proofs.Registry.Lookup
import Mathlib.Data.Finset.Card

/-!
# How many references a check follows

A check is given a number of references that it may follow one after the other. More of them never
change an outcome other than `endless`. Main statement: where finitely many references lead
anywhere, a number that depends on these and on the depth of the value alone is enough, so that a
check that is `endless` with it is `endless` with any other.
-/

namespace Lexicon

/-- Checks without state that have the same outcome. -/
def Check.sameOutcome : Check.Congruence Unit Unit where
  rel x y := x.outcome = y.outcome
  rel_pure _ := rfl
  rel_throw _ := rfl
  rel_bind hxy hfg := by
    simp only [Check.outcome_bind, hxy, hfg]
  rel_attempt hxy := by
    simp only [Check.outcome_attempt, hxy]

/-- A check and one that has the same outcome unless the first goes on without end. -/
def Check.extending : Check.Congruence Unit Unit where
  rel x y := x.outcome ≠ .error .endless → y.outcome = x.outcome
  rel_pure _ _ := rfl
  rel_throw _ _ := rfl
  rel_bind {_ _ x y f g} hxy hfg ended := by
    rw [Check.outcome_bind] at ended ⊢
    rw [Check.outcome_bind]
    cases hx : x.outcome with
    | error e =>
      rw [hx] at ended
      rw [hxy (by simpa [hx] using ended), hx]
      rfl
    | ok a =>
      rw [hx] at ended
      rw [hxy (by simp [hx]), hx]
      exact hfg a ended
  rel_attempt {_ x y} hxy ended := by
    rw [Check.outcome_attempt] at ended ⊢
    rw [Check.outcome_attempt]
    rw [hxy]
    intro hx
    simp [hx] at ended

namespace Lookup

variable (look : Lookup)

/-- One more step changes no outcome other than `endless`. -/
theorem outcome_follow_succ (steps : Nat) (target : Reference) (v : Value) (path : Path)
    (ended : (look.follow steps target v path).outcome ≠ .error .endless) :
    (look.follow (steps + 1) target v path).outcome =
      (look.follow steps target v path).outcome := by
  have extends_ (n : Nat) : ∀ t v p,
      Check.extending.rel (look.follow n t v p) (look.follow (n + 1) t v p) := by
    induction n with
    | zero => exact fun _ _ _ ended => absurd rfl ended
    | succ n ih =>
      intro t v p
      refine Check.extending.rel_bind (Check.extending.rel_lift _) fun d => ?_
      exact Check.Congruence.rel_checkWith _ d.schema v p (fun t => ih t v p)
        fun v' _ t p => ih t v' p
  exact extends_ steps target v path ended

/-- More steps change no outcome other than `endless`. -/
theorem outcome_follow_of_le {m n : Nat} (hmn : m ≤ n) (target : Reference) (v : Value)
    (path : Path) (ended : (look.follow m target v path).outcome ≠ .error .endless) :
    (look.follow n target v path).outcome = (look.follow m target v path).outcome := by
  induction hmn with
  | refl => rfl
  | step _ ih => rw [outcome_follow_succ look _ target v path (by rw [ih]; exact ended), ih]

/-! ### Enough steps

On one value and at one path, the references that are still `endless` with a number of steps become
fewer with more steps. Once one more step settles no further reference there, none ever does, as
long as all is settled on the values that are less deep. -/

/-- One more step changes no outcome on a value at a path. -/
private def Settled (n : Nat) (v : Value) (path : Path) : Prop :=
  ∀ target, (look.follow (n + 1) target v path).outcome = (look.follow n target v path).outcome

private theorem settled_succ {n : Nat} {v : Value} {path : Path} (h : look.Settled n v path)
    (below : ∀ v' : Value, v'.depth < v.depth → ∀ p, look.Settled n v' p) :
    look.Settled (n + 1) v path := by
  intro target
  refine Check.sameOutcome.rel_bind rfl fun d => ?_
  exact Check.Congruence.rel_checkWith _ d.schema v path h fun v' hv' t p => below v' hv' p t

private theorem settled_of_le {m n : Nat} (hmn : m ≤ n) {v : Value} {path : Path}
    (h : look.Settled m v path)
    (below : ∀ k, m ≤ k → ∀ v' : Value, v'.depth < v.depth → ∀ p, look.Settled k v' p) :
    look.Settled n v path := by
  induction hmn with
  | refl => exact h
  | step hle ih => exact look.settled_succ ih (below _ hle)

private theorem exists_repeat {α : Type} (U : Nat → Finset α) (hU : ∀ n, U (n + 1) ⊆ U n)
    (K : Nat) : ∀ m, (U m).card ≤ K → ∃ n, m ≤ n ∧ n ≤ m + K ∧ U (n + 1) = U n := by
  induction K with
  | zero =>
    intro m hm
    refine ⟨m, Nat.le_refl m, Nat.le_refl m, ?_⟩
    have hempty : U m = ∅ := Finset.card_eq_zero.mp (Nat.le_zero.mp hm)
    rw [hempty, ← Finset.subset_empty, ← hempty]
    exact hU m
  | succ K ih =>
    intro m hm
    by_cases heq : U (m + 1) = U m
    · exact ⟨m, Nat.le_refl m, Nat.le_add_right m _, heq⟩
    · have hlt := Finset.card_lt_card (Finset.ssubset_iff_subset_ne.mpr ⟨hU m, heq⟩)
      obtain ⟨n, hmn, hn, hrep⟩ := ih (m + 1) (by omega)
      exact ⟨n, by omega, by omega, hrep⟩

variable {look} {targets : List Reference}

open scoped Classical in
private noncomputable def stuck (look : Lookup) (targets : List Reference) (v : Value) (path : Path)
    (n : Nat) : Finset Reference :=
  targets.toFinset.filter fun target =>
    (look.follow n target v path).outcome = .error .endless

private theorem stuck_succ_subset (v : Value) (path : Path) (n : Nat) :
    stuck look targets v path (n + 1) ⊆ stuck look targets v path n := by
  classical
  intro target ht
  simp only [stuck, Finset.mem_filter] at ht ⊢
  refine ⟨ht.1, ?_⟩
  by_contra ended
  exact ended ((look.outcome_follow_succ n target v path ended).symm.trans ht.2)

private theorem settled_of_stuck (htargets : ∀ t d, look t = .ok d → t ∈ targets) {v : Value}
    {path : Path} {n : Nat} (hn : 0 < n)
    (hrep : stuck look targets v path (n + 1) = stuck look targets v path n) :
    look.Settled n v path := by
  classical
  intro target
  by_cases ended : (look.follow n target v path).outcome = .error .endless
  · cases hd : look target with
    | error e =>
      obtain ⟨k, rfl⟩ := Nat.exists_eq_succ_of_ne_zero (Nat.ne_of_gt hn)
      simp [follow, Check.outcome_bind, hd]
    | ok d =>
      have hmem : target ∈ stuck look targets v path n :=
        Finset.mem_filter.mpr ⟨List.mem_toFinset.mpr (htargets target d hd), ended⟩
      rw [← hrep] at hmem
      rw [ended, (Finset.mem_filter.mp hmem).2]
  · exact look.outcome_follow_succ n target v path ended

private theorem settled_of_depth (htargets : ∀ t d, look t = .ok d → t ∈ targets) (depth : Nat) :
    ∀ v : Value, v.depth ≤ depth → ∀ n, depth * (targets.length + 1) ≤ n →
      ∀ path, look.Settled n v path := by
  classical
  induction depth with
  | zero => exact fun v hv => absurd v.depth_pos (by omega)
  | succ depth ih =>
    intro v hv n hn path
    have below (k : Nat) (hk : depth * (targets.length + 1) ≤ k) (v' : Value)
        (hv' : v'.depth < v.depth) (p : Path) : look.Settled k v' p :=
      ih v' (by omega) k hk p
    -- the first number of steps from which the less deep values are settled, or one step
    obtain ⟨start, hstart, hpos, hle⟩ : ∃ start, depth * (targets.length + 1) ≤ start ∧ 0 < start ∧
        start ≤ depth * (targets.length + 1) + 1 :=
      ⟨depth * (targets.length + 1) + 1, by omega, by omega, Nat.le_refl _⟩
    have hcard : (stuck look targets v path start).card ≤ targets.length :=
      (Finset.card_filter_le _ _).trans (List.toFinset_card_le _)
    obtain ⟨k, hk, hkn, hrep⟩ :=
      exists_repeat _ (stuck_succ_subset v path) targets.length start hcard
    have hsettled := settled_of_stuck htargets (by omega) hrep
    have hkn' : k ≤ n := by
      rw [Nat.succ_mul] at hn
      omega
    exact look.settled_of_le hkn' hsettled fun j hj v' hv' p => below j (by omega) v' hv' p

/-- Where only `targets` lead anywhere, as many steps as there are targets at each level of the
value, and one more at each level, are enough. -/
theorem outcome_follow_eq (htargets : ∀ t d, look t = .ok d → t ∈ targets) {v : Value} {m n : Nat}
    (hm : v.depth * (targets.length + 1) ≤ m) (hn : v.depth * (targets.length + 1) ≤ n)
    (target : Reference) (path : Path) :
    (look.follow m target v path).outcome = (look.follow n target v path).outcome := by
  have stable (k : Nat) (hk : v.depth * (targets.length + 1) ≤ k) :
      (look.follow k target v path).outcome =
        (look.follow (v.depth * (targets.length + 1)) target v path).outcome := by
    induction hk with
    | refl => rfl
    | step hle ih =>
      rw [settled_of_depth htargets v.depth v (Nat.le_refl _) _ hle path target, ih]
  rw [stable m hm, stable n hn]

/-- Enough steps for a value are enough for a check by any schema. -/
theorem outcome_checkWith_eq (htargets : ∀ t d, look t = .ok d → t ∈ targets) {v : Value}
    {m n : Nat} (hm : v.depth * (targets.length + 1) ≤ m) (hn : v.depth * (targets.length + 1) ≤ n)
    (s : Schema) (path : Path) :
    (s.checkWith (look.follow m) v path).outcome =
      (s.checkWith (look.follow n) v path).outcome := by
  have enough {v' : Value} {k : Nat} (hv' : v'.depth ≤ v.depth)
      (hk : v.depth * (targets.length + 1) ≤ k) : v'.depth * (targets.length + 1) ≤ k :=
    (Nat.mul_le_mul_right _ hv').trans hk
  refine Check.sameOutcome.rel_checkWith s v path (fun t => ?_) fun v' hv' t p => ?_
  · exact outcome_follow_eq htargets hm hn t path
  · have hle := Nat.le_of_lt hv'
    exact outcome_follow_eq htargets (enough hle hm) (enough hle hn) t p

/-- More steps change no outcome of a check by a schema other than `endless`. -/
theorem outcome_checkWith_of_le (look : Lookup) {m n : Nat} (hmn : m ≤ n) (s : Schema) (v : Value)
    (path : Path) (ended : (s.checkWith (look.follow m) v path).outcome ≠ .error .endless) :
    (s.checkWith (look.follow n) v path).outcome = (s.checkWith (look.follow m) v path).outcome :=
  Check.extending.rel_checkWith s v path
    (fun t => outcome_follow_of_le look hmn t v path)
    (fun v' _ t p => outcome_follow_of_le look hmn t v' p) ended

end Lookup

end Lexicon
