import Lexicon.Proofs.Registry.Faults
import Lexicon.Proofs.Schema.Idempotent

/-!
# Checking again

A union may choose another target for what its first choice has made of a value, so that a second
check need not make the same of it. The first choice is still there, however, and finds no failure
if its own checks find none. Main statement: a schema finds no failure in what it has made of a
value, if its parts do not; of a union this takes that its targets make objects of objects.
-/

namespace Lexicon

/-! ### Choices -/

namespace Check

variable {α : Type} {last : Option Failure} {checks : List (Check Unit α)} {path : Path}
  {problem : Option Failure → Problem}

/-- What a choice ends with is what one of its checks ends with. -/
theorem exists_of_outcome_oneOf {a : α} (h : (oneOf last checks path problem).outcome = .ok a) :
    ∃ check ∈ checks, check.outcome = .ok a := by
  induction checks generalizing last with
  | nil => cases h
  | cons check rest ih =>
    rw [outcome_oneOf_cons] at h
    split at h
    · next hcheck =>
      rw [h] at hcheck
      exact ⟨check, List.mem_cons_self, hcheck⟩
    · obtain ⟨later, hlater, made⟩ := ih h
      exact ⟨later, List.mem_cons_of_mem _ hlater, made⟩
    · cases h

/-- A choice fails only if all of its checks do. -/
theorem noFailure_oneOf {check : Check Unit α} (hcheck : check ∈ checks)
    (h : NoFailure check.outcome) : NoFailure (oneOf last checks path problem).outcome := by
  induction checks generalizing last with
  | nil => cases hcheck
  | cons first rest ih =>
    intro f hf
    rw [outcome_oneOf_cons] at hf
    split at hf
    · cases hf
    · next g hfirst =>
      rcases List.mem_cons.mp hcheck with rfl | hcheck
      · exact h g hfirst
      · exact ih hcheck f hf
    · next e other _ => exact other f (Except.error.inj hf)

end Check

namespace Schema

variable (follow : Reference → Value → Path → Check Unit Value)

/-- A schema finds no failure in what it has made of a value. -/
def Lasting (s : Schema) : Prop :=
  ∀ ⦃v m : Value⦄ ⦃path : Path⦄, (s.checkWith follow v path).outcome = .ok m →
    NoFailure (s.checkWith follow m path).outcome

variable {follow} {s : Schema}

theorem Idempotent.lasting (h : s.Idempotent follow) : s.Lasting follow := by
  intro v m path hm
  rw [h hm]
  exact NoFailure.ok m

/-! ### Marks and arrays -/

theorem Lasting.required (h : s.Lasting follow) : Lasting follow (.required s) := by
  intro v m path hm
  rw [checkWith] at hm ⊢
  exact h hm

theorem Lasting.nullable (h : s.Lasting follow) : Lasting follow (.nullable s) := by
  intro v m path hm
  by_cases hnull : m = .null
  · rw [hnull]
    exact NoFailure.ok _
  · have proper : v ≠ .null := by
      intro hv
      rw [hv] at hm
      exact hnull (Except.ok.inj hm).symm
    rw [checkWith_nullable proper] at hm
    rw [checkWith_nullable hnull]
    exact h hm

private theorem lasting_items (h : s.Lasting follow) {path : Path} {i : Nat} {xs ys : List Value}
    (hys : (checkItems (checkWith follow s) path i xs).outcome = .ok ys) :
    ys.length = xs.length ∧ NoFailure (checkItems (checkWith follow s) path i ys).outcome := by
  induction xs generalizing i ys with
  | nil =>
    rw [← Except.ok.inj hys]
    exact ⟨rfl, NoFailure.ok _⟩
  | cons x xs ih =>
    rw [checkItems, Check.outcome_bind] at hys
    obtain ⟨y, hy, hys⟩ := Except.bind_eq_ok_iff.mp hys
    rw [Check.outcome_bind] at hys
    obtain ⟨rest, hrest, hys⟩ := Except.bind_eq_ok_iff.mp hys
    rw [← Except.ok.inj hys]
    obtain ⟨length, again⟩ := ih hrest
    constructor
    · exact congrArg (· + 1) length
    · rw [checkItems, Check.outcome_bind]
      apply (h hy).bind
      intro y'
      rw [Check.outcome_bind]
      apply again.bind
      intro _
      exact NoFailure.ok _

theorem Lasting.array (h : s.Lasting follow) (bounds : Bounds) :
    Lasting follow (.array s bounds) := by
  intro v m path hm
  cases v with
  | list xs | tuple xs =>
    rw [checkWith, Check.outcome_bind] at hm
    obtain ⟨_, hbounds, hm⟩ := Except.bind_eq_ok_iff.mp hm
    rw [Check.outcome_bind] at hm
    obtain ⟨ys, hys, hm⟩ := Except.bind_eq_ok_iff.mp hm
    rw [← Except.ok.inj hm]
    obtain ⟨length, again⟩ := lasting_items h hys
    rw [checkWith, Check.outcome_bind, length, hbounds, Except.ok_bind, Check.outcome_bind]
    apply again.bind
    intro _
    exact NoFailure.ok _
  | _ =>
    rw [checkWith] at hm
    · cases hm
    all_goals simp

/-! ### Objects -/

/-- A field of an object finds no failure in what it has made of a value, nor in the value that
stands in for an absent one. -/
structure LastingField (follow : Reference → Value → Path → Check Unit Value) (s : Schema) :
    Prop where
  value : s.Lasting follow
  default : ∀ d, s.default? = some d → ∀ path, NoFailure (s.checkWith follow d path).outcome

/-- A field finds no failure in an object that holds what the field has put there. -/
theorem LastingField.part (h : s.LastingField follow) {es es' : Entries Value} {path : Path}
    {key : String} {p : Option (String × Value)} (hp : part follow es path key s = .ok p)
    (held : es'.find? key = p.map Prod.snd) : NoFailure (part follow es' path key s) := by
  cases p with
  | none =>
    have absent := part_eq_none_iff.mp hp
    rw [part_eq_none_iff.mpr ⟨held, absent.2⟩]
    exact NoFailure.ok _
  | some e =>
    rw [part_of_found held]
    apply NoFailure.map
    rcases part_eq_some_iff.mp hp with ⟨x, y, -, hy, rfl⟩ | ⟨-, d, hd, rfl⟩
    · exact h.value hy
    · exact h.default d hd _

/-- An object without rules for undeclared keys finds no failure in what it has made, if its
declared fields do not. -/
theorem lasting_fields {fields : List (String × Schema)} (hnodup : (Entries.keys fields).Nodup)
    (h : ∀ e ∈ fields, e.2.LastingField follow) : Lasting follow (.fields fields) := by
  intro v m path hm
  obtain ⟨es, parts, rfl, hparts, rfl⟩ := outcome_fields_eq_ok_iff.mp hm
  rw [outcome_fields]
  apply NoFailure.map
  rw [NoFailure.iff_faultsAre]
  apply FaultsAre.mapM
  intro e he
  rw [← NoFailure.iff_faultsAre]
  obtain ⟨p, hp, held⟩ := find?_checked hparts hnodup he
  exact (h e he).part hp held

/-! ### Unions -/

variable (follow) in
/-- A schema makes objects of objects. -/
def KeepsObjects (s : Schema) : Prop :=
  ∀ ⦃es : Entries Value⦄ ⦃path : Path⦄ ⦃m : Value⦄,
    (s.checkWith follow (.object es) path).outcome = .ok m → ∃ ms, m = .object ms

/-- A union finds no failure in what one of its targets has made of an object, if this is an
object in which the target finds none. -/
theorem lasting_union {targets : List Reference}
    (lasting : ∀ t ∈ targets, (Schema.ref t).Lasting follow)
    (objects : ∀ t ∈ targets, (Schema.ref t).KeepsObjects follow) :
    (Schema.union targets).Lasting follow := by
  intro v m path hm
  cases v with
  | object es =>
    rw [checkWith_union] at hm
    by_cases none : targets.isEmpty
    · rw [if_pos none] at hm
      rw [← Except.ok.inj hm, checkWith_union, if_pos none]
      exact NoFailure.ok _
    · rw [if_neg none] at hm
      obtain ⟨check, hcheck, made⟩ := Check.exists_of_outcome_oneOf hm
      obtain ⟨t, ht, rfl⟩ := List.mem_map.mp hcheck
      obtain ⟨ms, rfl⟩ := objects t ht made
      have again : NoFailure (follow t (.object ms) path).outcome := lasting t ht made
      rw [checkWith_union, if_neg none]
      exact Check.noFailure_oneOf (List.mem_map_of_mem ht) again
  | _ =>
    rw [checkWith] at hm
    · cases hm
    all_goals simp

end Schema

end Lexicon
