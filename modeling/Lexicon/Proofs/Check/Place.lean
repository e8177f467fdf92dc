import Lexicon.Proofs.Check.Simulation

/-!
# Checks at different places

The path of a check goes into its failures and nowhere else. Main statement: a value that a schema
accepts at one path it accepts at any other, with the same normalized value, if references behave in
this way.
-/

namespace Lexicon

/-- Two outcomes that differ at most in which failure they are. -/
inductive Check.Alike {α : Type} : Except Fault α → Except Fault α → Prop
  | same (outcome : Except Fault α) : Alike outcome outcome
  | invalid (f g : Failure) : Alike (.error (.invalid f)) (.error (.invalid g))

theorem Check.Alike.ok_iff {α : Type} {x y : Except Fault α} (h : Check.Alike x y) (a : α) :
    x = .ok a ↔ y = .ok a := by
  cases h with
  | same => rfl
  | invalid => simp

theorem Check.Alike.error_iff {α : Type} {x y : Except Fault α} (h : Check.Alike x y) {e : Fault}
    (proper : ∀ f, e ≠ .invalid f) : x = .error e ↔ y = .error e := by
  cases h with
  | same => rfl
  | invalid f g => simp [(proper f).symm, (proper g).symm]

private theorem Check.Alike.oneOf {α : Type} {xs ys : List (Check Unit α)}
    (h : List.Forall₂ (fun x y => Check.Alike x.outcome y.outcome) xs ys)
    (last last' : Option Failure) (p q : Path) (problem : Option Failure → Problem) :
    Check.Alike (Check.oneOf last xs p problem).outcome
      (Check.oneOf last' ys q problem).outcome := by
  induction h generalizing last last' with
  | nil => exact .invalid _ _
  | cons hxy _ ih =>
    rename_i x y xs ys _
    rw [Check.outcome_oneOf_cons, Check.outcome_oneOf_cons]
    generalize x.outcome = x' at hxy ⊢
    generalize y.outcome = y' at hxy ⊢
    cases hxy with
    | same =>
      rcases x' with e | a
      · cases e with
        | invalid f => exact ih _ _
        | _ => exact .same _
      · exact .same _
    | invalid f g => exact ih _ _

/-- Checks at any two paths whose outcomes differ at most in which failure they are. -/
def Check.alike : Check.Simulation Unit Unit where
  rel x y := Check.Alike x.outcome y.outcome
  paths _ _ := True
  paths_append _ h := h
  rel_pure _ := .same _
  rel_throw _ := .same _
  rel_fail _ _ := .invalid _ _
  rel_bind {_ _ x y f g} hxy hfg := by
    rw [Check.outcome_bind, Check.outcome_bind]
    generalize x.outcome = x' at hxy ⊢
    generalize y.outcome = y' at hxy ⊢
    cases hxy with
    | same =>
      cases x' with
      | ok a => exact hfg a
      | error e => exact .same _
    | invalid f g => exact .invalid f g
  rel_oneOf problem h _ := Check.Alike.oneOf h none none _ _ problem

end Lexicon
