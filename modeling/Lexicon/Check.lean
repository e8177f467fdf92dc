import Lexicon.Fault

/-!
# Checks

A check reads and changes a state and ends with a result or a fault. What it did to the state stays
even where it ends with a fault. Only a failure of the value itself can be recovered from; every
other fault ends the whole check.
-/

namespace Lexicon

/-- A computation over a state that may end with a fault. -/
abbrev Check (σ : Type) := ExceptT Fault (StateM σ)

namespace Check

variable {σ α : Type}

/-- Ends with a problem of the part that a path leads to. -/
def fail (path : Path) (problem : Problem) : Check σ α :=
  throw (.invalid ⟨path, problem⟩)

/-- Tries a check; a failure of the value becomes a result. -/
def attempt (check : Check σ α) : Check σ (Except Failure α) :=
  ExceptT.mk fun s =>
    match check.run s with
    | (.ok a, s') => (.ok (.ok a), s')
    | (.error (.invalid f), s') => (.ok (.error f), s')
    | (.error e, s') => (.error e, s')

/-- The result of the first check that does not fail; otherwise the failure of the last one. -/
def firstOf (last : Option Failure) : List (Check σ α) → Check σ (Except (Option Failure) α)
  | [] => pure (.error last)
  | check :: rest => do
    match ← attempt check with
    | .ok a => pure (.ok a)
    | .error f => firstOf (some f) rest

/-- A result leaves the state as it is. -/
@[simp] theorem run_pure (a : α) (s : σ) : (pure a : Check σ α).run s = (.ok a, s) := rfl

/-- A fault leaves the state as it is. -/
@[simp] theorem run_throw (e : Fault) (s : σ) : (throw e : Check σ α).run s = (.error e, s) := rfl

/-- A failure of the value leaves the state as it is. -/
@[simp] theorem run_fail (path : Path) (problem : Problem) (s : σ) :
    (fail path problem : Check σ α).run s = (.error (.invalid ⟨path, problem⟩), s) := rfl

/-- A sequence goes on in the state that its first part left, unless that ended with a fault. -/
theorem run_bind {β : Type} (check : Check σ α) (f : α → Check σ β) (s : σ) :
    (check >>= f).run s = match check.run s with
      | (.ok a, s') => (f a).run s'
      | (.error e, s') => (.error e, s') := by
  show ExceptT.bind check f s = _
  simp only [ExceptT.bind, ExceptT.mk, ExceptT.run]
  show StateT.bind _ _ s = _
  unfold StateT.bind
  show (match check s with | (a, s') => ExceptT.bindCont f a s') = _
  rcases check s with ⟨outcome, s'⟩
  cases outcome <;> rfl

/-- What an attempt makes of each outcome. -/
theorem run_attempt (check : Check σ α) (s : σ) :
    (attempt check).run s = match check.run s with
      | (.ok a, s') => (.ok (.ok a), s')
      | (.error (.invalid f), s') => (.ok (.error f), s')
      | (.error e, s') => (.error e, s') := rfl

end Check

end Lexicon
