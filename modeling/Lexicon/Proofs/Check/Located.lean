import Lexicon.Proofs.Check.Simulation
import Lexicon.Proofs.Value.Parts

/-!
# Where failures are reported

A failure is located in a value if every place on the way of its path is a part of the value, and
its own place is one too unless it reports an absent entry of the object there. The failures that it
carries lie below it and are located in the same way.

Main statement: whatever a schema does with a value, its failures are located in the value, and a
check that begins at a longer path reports the same failures under that path.
-/

namespace Lexicon

variable {α β : Type}

/-! ### Failures under a path -/

/-- The failure that a problem carries, if there is one. -/
def Problem.cause? : Problem → Option Failure
  | .noAlternative _ _ last | .noReference _ last => last.map fun f => ⟨f.1, f.2⟩
  | _ => none

/-- A problem whose carried failures are reported under a path. -/
def Problem.under (p : Path) : Problem → Problem
  | .noAlternative description count (some (path, problem)) =>
    .noAlternative description count (some (p ++ path, problem.under p))
  | .noReference references (some (path, problem)) =>
    .noReference references (some (p ++ path, problem.under p))
  | problem => problem

/-- A failure with a path before its own and before those of the failures that it carries. -/
def Failure.under (p : Path) (f : Failure) : Failure :=
  ⟨p ++ f.path, f.problem.under p⟩

@[simp] theorem Failure.path_under (p : Path) (f : Failure) : (f.under p).path = p ++ f.path := rfl

@[simp] theorem Failure.problem_under (p : Path) (f : Failure) :
    (f.under p).problem = f.problem.under p := rfl

private theorem Problem.cause?_eq_none {problem : Problem}
    (noAlternative : ∀ description count path cause,
      problem = .noAlternative description count (some (path, cause)) → False)
    (noReference : ∀ references path cause,
      problem = .noReference references (some (path, cause)) → False) :
    problem.cause? = none := by
  cases problem with
  | noAlternative description count last =>
    cases last with
    | none => rfl
    | some f => exact (noAlternative description count f.1 f.2 rfl).elim
  | noReference references last =>
    cases last with
    | none => rfl
    | some f => exact (noReference references f.1 f.2 rfl).elim
  | _ => rfl

theorem Problem.cause?_under (p : Path) (problem : Problem) :
    (problem.under p).cause? = problem.cause?.map (·.under p) := by
  fun_cases Problem.under p problem with
  | case1 => rfl
  | case2 => rfl
  | case3 _ noAlternative noReference =>
    rw [cause?_eq_none noAlternative noReference]
    rfl

theorem Problem.under_of_cause?_eq_none {problem : Problem} (h : problem.cause? = none)
    (p : Path) : problem.under p = problem := by
  fun_cases Problem.under p problem with
  | case1 => simp [cause?] at h
  | case2 => simp [cause?] at h
  | case3 => rfl

/-- The wording of a problem says nothing about places. -/
theorem Problem.message_under (p : Path) (problem : Problem) :
    (problem.under p).message = problem.message := by
  fun_cases Problem.under p problem with
  | case1 => rfl
  | case2 => rfl
  | case3 => rfl

theorem Problem.under_under (p q : Path) (problem : Problem) :
    (problem.under q).under p = problem.under (p ++ q) := by
  fun_induction Problem.under q problem with
  | case1 description count path problem ih => simp [Problem.under, ih]
  | case2 references path problem ih => simp [Problem.under, ih]
  | case3 problem noAlternative noReference =>
    have uncaused := cause?_eq_none noAlternative noReference
    rw [under_of_cause?_eq_none uncaused, under_of_cause?_eq_none uncaused]

theorem Problem.under_nil (problem : Problem) : problem.under [] = problem := by
  fun_induction Problem.under [] problem with
  | case1 description count path problem ih => simp [ih]
  | case2 references path problem ih => simp [ih]
  | case3 => rfl

@[simp] theorem Failure.under_nil (f : Failure) : f.under [] = f := by
  simp [Failure.under, Problem.under_nil]

theorem Failure.under_under (p q : Path) (f : Failure) :
    (f.under q).under p = f.under (p ++ q) := by
  simp [Failure.under, Problem.under_under]

/-! ### Failures in a value -/

/-- Every place on the way of a failure is a part of the value, and its own place is one too unless
it reports an absent entry of the object there. -/
structure Failure.StandsIn (f : Failure) (v : Value) : Prop where
  leads : ∀ p, p <+: f.path → p ≠ f.path → (Path.follow? p v).isSome
  arrives : (Path.follow? f.path v).isSome ∨
    f.problem.message = "is required" ∧ ∃ (place : Path) (key : String) (es : Entries Value),
      f.path = place ++ [.key key] ∧ Path.follow? place v = some (.object es) ∧
        key ∉ Entries.keys es

/-- A failure stands in a value, and so do the failures that it carries, below its own place. -/
inductive Failure.LocatedIn (v : Value) : Failure → Prop
  | intro {f : Failure} (stands : f.StandsIn v)
      (extends_ : ∀ g, f.problem.cause? = some g → f.path <+: g.path)
      (causes : ∀ g, f.problem.cause? = some g → LocatedIn v g) : LocatedIn v f

namespace Failure

theorem StandsIn.of_follow? {f : Failure} {v : Value} (h : (Path.follow? f.path v).isSome) :
    f.StandsIn v where
  leads p hp _ := by
    obtain ⟨q, hq⟩ := hp
    rw [← hq] at h
    exact Path.isSome_follow?_of_append h
  arrives := .inl h

theorem StandsIn.missing {es : Entries Value} {key : String} (h : Entries.find? es key = none) :
    StandsIn ⟨[.key key], .missing⟩ (.object es) where
  leads p hp hne := by
    rcases List.prefix_cons_iff.mp hp with rfl | ⟨rest, rfl, hrest⟩
    · rfl
    · exact absurd (by rw [List.prefix_nil.mp hrest]) hne
  arrives := by
    refine .inr ⟨rfl, [], key, es, rfl, rfl, fun mem => ?_⟩
    rw [← Entries.has_eq_true_iff, Entries.has, h] at mem
    simp at mem

/-- What stands in a part of a value stands in the value, under the path of the part. -/
theorem StandsIn.under {f : Failure} {v x : Value} {q : Path} (h : f.StandsIn x)
    (hq : Path.follow? q v = some x) : (f.under q).StandsIn v where
  leads p hp hne := by
    rcases List.prefix_or_prefix_of_prefix hp (List.prefix_append q f.path) with hpq | ⟨r, rfl⟩
    · obtain ⟨r, rfl⟩ := hpq
      exact Path.isSome_follow?_of_append (q := r) (by rw [hq]; rfl)
    · rw [Path.follow?_append, hq, Option.bind_some]
      refine h.leads r ((List.prefix_append_right_inj q).mp hp) fun heq => hne ?_
      rw [heq, path_under]
  arrives := by
    rcases h.arrives with reached | ⟨message, place, key, es, path, parent, absent⟩
    · rw [path_under, Path.follow?_append, hq]
      exact .inl reached
    · refine .inr ⟨?_, q ++ place, key, es, ?_, ?_, absent⟩
      · rw [problem_under, Problem.message_under, message]
      · rw [path_under, path, List.append_assoc]
      · rw [Path.follow?_append, hq, Option.bind_some, parent]

/-- A text has no place but its own. -/
theorem StandsIn.path_eq_nil {f : Failure} {s : String} (h : f.StandsIn (.str s)) :
    f.path = [] := by
  rcases h.arrives with reached | ⟨-, place, key, es, path, parent, -⟩
  · cases hp : f.path with
    | nil => rfl
    | cons step rest => simp [hp] at reached
  · cases place with
    | nil => simp at parent
    | cons step rest => simp at parent

/-- Moving what stands in one value into another moves what is located there. -/
theorem LocatedIn.move {f : Failure} {v x : Value} {q : Path}
    (stand : ∀ g : Failure, g.StandsIn x → (g.under q).StandsIn v) (h : f.LocatedIn x) :
    (f.under q).LocatedIn v := by
  induction h with
  | @intro f stands extends_ causes ih =>
    have carried {g' : Failure} (hg : (f.under q).problem.cause? = some g') :
        ∃ g, f.problem.cause? = some g ∧ g.under q = g' := by
      rw [problem_under, Problem.cause?_under] at hg
      exact Option.map_eq_some_iff.mp hg
    refine .intro (stand f stands) ?_ ?_
    · intro g' hg'
      obtain ⟨g, hg, rfl⟩ := carried hg'
      exact (List.prefix_append_right_inj q).mpr (extends_ g hg)
    · intro g' hg'
      obtain ⟨g, hg, rfl⟩ := carried hg'
      exact ih g hg

theorem LocatedIn.under {f : Failure} {v x : Value} {q : Path} (h : f.LocatedIn x)
    (hq : Path.follow? q v = some x) : (f.under q).LocatedIn v :=
  h.move fun _ hg => hg.under hq

/-- A failure of a key is located where the entry of the key is. -/
theorem LocatedIn.under_key {f : Failure} {v : Value} {s : String} {q : Path}
    (h : f.LocatedIn (.str s)) (hq : (Path.follow? q v).isSome) : (f.under q).LocatedIn v := by
  refine h.move fun g hg => .of_follow? ?_
  rw [path_under, hg.path_eq_nil, List.append_nil]
  exact hq

theorem LocatedIn.of_uncaused {f : Failure} {v : Value} (stands : f.StandsIn v)
    (h : f.problem.cause? = none) : f.LocatedIn v :=
  .intro stands (fun g hg => by simp [h] at hg) (fun g hg => by simp [h] at hg)

end Failure

/-! ### Located checks -/

namespace Check

/-- An outcome whose failure is reported under a path. -/
def reported (p : Path) : Except Fault α → Except Fault α
  | .error (.invalid f) => .error (.invalid (f.under p))
  | outcome => outcome

@[simp] theorem reported_ok (p : Path) (a : α) : reported p (.ok a) = .ok a := rfl

@[simp] theorem reported_invalid (p : Path) (f : Failure) :
    (reported p (.error (.invalid f)) : Except Fault α) = .error (.invalid (f.under p)) := rfl

theorem reported_of_noFailure {outcome : Except Fault α}
    (h : ∀ f, outcome ≠ .error (.invalid f)) (p : Path) : reported p outcome = outcome := by
  unfold reported
  split
  · next f => exact absurd rfl (h f)
  · rfl

@[simp] theorem reported_nil (outcome : Except Fault α) : reported [] outcome = outcome := by
  rcases outcome with e | a
  · cases e with
    | invalid f => simp
    | _ => rfl
  · rfl

theorem reported_reported (p q : Path) (outcome : Except Fault α) :
    reported p (reported q outcome) = reported (p ++ q) outcome := by
  rcases outcome with e | a
  · cases e with
    | invalid f => simp [Failure.under_under]
    | _ => rfl
  · rfl

/-- A check that may be made at any path: its failures are located in the value and reported under
the path. -/
def Located (v : Value) (check : Path → Check Unit α) : Prop :=
  ∃ outcome : Except Fault α, (∀ p, (check p).outcome = reported p outcome) ∧
    ∀ f, outcome = .error (.invalid f) → f.LocatedIn v

namespace Located

variable {v : Value}

theorem of_noFailure {check : Check Unit α} (h : ∀ f, check.outcome ≠ .error (.invalid f)) :
    Located v fun _ => check :=
  ⟨check.outcome, fun p => (reported_of_noFailure h p).symm, fun f hf => absurd hf (h f)⟩

theorem pure (a : α) : Located v fun _ => (Pure.pure a : Check Unit α) :=
  of_noFailure fun f => by simp

theorem throw {e : Fault} (proper : ∀ f, e ≠ .invalid f) :
    Located v fun _ => (MonadExcept.throw e : Check Unit α) :=
  of_noFailure fun f h => proper f (Except.error.inj h)

theorem fail {q : Path} {problem : Problem} (stands : Failure.StandsIn ⟨q, problem⟩ v)
    (uncaused : problem.cause? = none) :
    Located v fun p => (Check.fail (p ++ q) problem : Check Unit α) := by
  refine ⟨.error (.invalid ⟨q, problem⟩), fun p => ?_, ?_⟩
  · rw [reported_invalid, Failure.under, Problem.under_of_cause?_eq_none uncaused]
    rfl
  · rintro f ⟨⟩
    exact .of_uncaused stands uncaused

/-- A failure of the whole value. -/
theorem fail_here (problem : Problem) (uncaused : problem.cause? = none) :
    Located v fun p => (Check.fail p problem : Check Unit α) := by
  simpa using fail (α := α) (.of_follow? (f := ⟨[], problem⟩) (v := v) rfl) uncaused

theorem bind {x : Path → Check Unit α} {f : α → Path → Check Unit β} (hx : Located v x)
    (hf : ∀ a, Located v (f a)) : Located v fun p => x p >>= fun a => f a p := by
  obtain ⟨outcome, reports, located⟩ := hx
  cases outcome with
  | error e =>
    refine ⟨.error e, fun p => ?_, fun g hg => located g (by rw [Except.error.inj hg])⟩
    rw [outcome_bind, reports]
    cases e <;> rfl
  | ok a =>
    obtain ⟨next, reports', located'⟩ := hf a
    refine ⟨next, fun p => ?_, located'⟩
    rw [outcome_bind, reports, reported_ok, Except.ok_bind, reports']

/-- A located check of another value, made at a place of this one. -/
theorem move {x : Value} {q : Path} {check : Path → Check Unit α} (h : Located x check)
    (moves : ∀ f : Failure, f.LocatedIn x → (f.under q).LocatedIn v) :
    Located v fun p => check (p ++ q) := by
  obtain ⟨outcome, reports, located⟩ := h
  refine ⟨reported q outcome, fun p => ?_, ?_⟩
  · rw [reports, reported_reported]
  · intro g hg
    rcases outcome with e | a
    · cases e with
      | invalid f =>
        obtain rfl : f.under q = g := by simpa using hg
        exact moves f (located f rfl)
      | _ => simp [reported] at hg
    · simp at hg

/-- A located check of a part, made at its place. -/
theorem at_part {x : Value} {q : Path} {check : Path → Check Unit α} (h : Located x check)
    (hq : Path.follow? q v = some x) : Located v fun p => check (p ++ q) :=
  h.move fun _ hf => hf.under hq

/-- A choice between located checks; the failure that it ends with carries the last one. -/
theorem oneOf {ι : Type} {xs : List ι} {check : ι → Path → Check Unit α}
    (problem : Option Failure → Problem) (h : ∀ x ∈ xs, Located v (check x))
    (carries : ∀ last, (problem last).cause? = last)
    (under : ∀ p last, (problem last).under p = problem (last.map (·.under p)))
    (last : Option Failure) (hlast : ∀ f, last = some f → f.LocatedIn v) :
    Located v fun p =>
      Check.oneOf (last.map (·.under p)) (xs.map fun x => check x p) p problem := by
  induction xs generalizing last with
  | nil =>
    refine ⟨.error (.invalid ⟨[], problem last⟩), fun p => ?_, ?_⟩
    · rw [reported_invalid, Failure.under, under, List.append_nil]
      rfl
    · rintro f ⟨⟩
      refine .intro (.of_follow? rfl) (fun g _ => List.nil_prefix) fun g hg => ?_
      exact hlast g (by rw [← carries last, hg])
  | cons x rest ih =>
    obtain ⟨outcome, reports, located⟩ := h x List.mem_cons_self
    by_cases failed : ∃ f, outcome = .error (.invalid f)
    · obtain ⟨f, rfl⟩ := failed
      obtain ⟨next, reports', located'⟩ := ih (fun y hy => h y (List.mem_cons_of_mem _ hy)) (some f)
        fun g hg => Option.some.inj hg ▸ located f rfl
      refine ⟨next, fun p => ?_, located'⟩
      simp only [List.map_cons, outcome_oneOf_cons, reports]
      exact reports' p
    · have noFailure : ∀ f, outcome ≠ .error (.invalid f) := fun f hf => failed ⟨f, hf⟩
      refine ⟨outcome, fun p => ?_, fun f hf => absurd hf (noFailure f)⟩
      simp only [List.map_cons, outcome_oneOf_cons, reports, reported_of_noFailure noFailure]
      split
      · rfl
      · next f => exact absurd rfl (noFailure f)
      · rfl

/-! ### Rules, items and entries -/

theorem bounds (b : Bounds) (quantity : Quantity) (actual : Value) :
    Located v fun p => (b.check quantity actual p : Check Unit Unit) := by
  obtain ⟨lower, upper⟩ := b
  have above : Located v fun p =>
      (Bounds.check ⟨none, upper⟩ quantity actual p : Check Unit Unit) := by
    cases upper with
    | none => exact pure _
    | some high =>
      simp only [Bounds.check]
      rcases high.below? actual with _ | _ | _
      · exact throw fun _ => by simp
      · exact pure _
      · exact fail_here _ rfl
  cases lower with
  | none => exact above
  | some low =>
    simp only [Bounds.check]
    rcases actual.below? low with _ | _ | _
    · exact bind (throw fun _ => by simp) fun _ => above
    · exact above
    · exact bind (fail_here _ rfl) fun _ => above

theorem rules (rules : TextRules) (s : String) :
    Located v fun p => (rules.check s p : Check Unit Unit) := by
  obtain ⟨format, pattern, bytes, graphemes⟩ := rules
  have matched : Located v fun p =>
      (TextRules.check ⟨none, pattern, bytes, graphemes⟩ s p : Check Unit Unit) := by
    have lengths := bind (v := v) (bounds bytes .textBytes (.int s.utf8ByteSize)) fun _ =>
      bounds graphemes .graphemes (.int (Text.Grapheme.count s.toList))
    cases pattern with
    | none => exact lengths
    | some pattern =>
      simp only [TextRules.check]
      split_ifs
      · exact lengths
      · exact bind (fail_here _ rfl) fun _ => lengths
  cases format with
  | none => exact matched
  | some format =>
    simp only [TextRules.check]
    split_ifs
    · exact matched
    · exact bind (fail_here _ rfl) fun _ => matched

theorem readBytes (v : Value) :
    Located v fun p => (Lexicon.readBytes v p : Check Unit (List UInt8)) := by
  unfold Lexicon.readBytes
  cases v with
  | bytes b => exact pure _
  | object entries =>
    dsimp only
    rcases found : Entries.find? entries "$bytes" with _ | x
    · exact fail_here _ rfl
    · cases x with
      | str s =>
        dsimp only
        rcases Text.Base64.decode? s.toList with _ | b
        · exact fail (.of_follow? (by rw [Path.follow?_key, found]; rfl)) rfl
        · exact pure _
      | _ => exact fail_here _ rfl
  | _ => exact fail_here _ rfl

theorem items {check : Value → Path → Check Unit Value} {xs : List Value} (i : Nat)
    (parts : ∀ (j : Nat) (x : Value), xs[j]? = some x →
      Path.follow? [.index (i + j)] v = some x)
    (h : ∀ x ∈ xs, Located x (check x)) : Located v fun p => checkItems check p i xs := by
  induction xs generalizing i with
  | nil => exact pure _
  | cons x rest ih =>
    have first := (h x List.mem_cons_self).at_part (parts 0 x rfl)
    have others := ih (i + 1) (fun j y hy => by
      rw [Nat.add_assoc, Nat.add_comm 1 j]
      exact parts (j + 1) y hy) fun y hy => h y (List.mem_cons_of_mem _ hy)
    exact bind first fun _ => bind others fun _ => pure _

theorem entries {check : String → Value → Path → Check Unit Value} {es : List (String × Value)}
    (h : ∀ e ∈ es, Located v fun p => check e.1 e.2 (p ++ [.key e.1])) :
    Located v fun p => checkEntries check p es := by
  induction es with
  | nil => exact pure _
  | cons e rest ih =>
    have others := ih fun e' he' => h e' (List.mem_cons_of_mem _ he')
    exact bind (h e List.mem_cons_self) fun _ => bind others fun _ => pure _

end Located

end Check

/-! ### Schemas -/

namespace Schema

open Check (Located)

variable {f : Reference → Value → Path → Check Unit Value}

/-- What references do with values of smaller depth is located in them. -/
def LocatedBelow (f : Reference → Value → Path → Check Unit Value) (depth : Nat) : Prop :=
  ∀ x : Value, x.depth < depth → x.DistinctKeys → ∀ target, Located x (f target x)

theorem LocatedBelow.mono {m n : Nat} (h : LocatedBelow f n) (hmn : m ≤ n) : LocatedBelow f m :=
  fun x hx => h x (Nat.lt_of_lt_of_le hx hmn)

mutual

/-- What a schema does with a value is located in it if what references do is. -/
theorem located_checkWith (s : Schema) (v : Value) (hd : v.DistinctKeys)
    (hv : ∀ target, Located v (f target v)) (hb : LocatedBelow f v.depth) :
    Located v (s.checkWith f v) := by
  match s with
  | .any | .noop => exact .pure v
  | .boolean =>
    cases v with
    | bool _ => exact .pure _
    | _ => exact .fail_here _ rfl
  | .integer bounds =>
    cases v with
    | int _ => exact .bind (.bounds _ _ _) fun _ => .pure _
    | _ => exact .fail_here _ rfl
  | .string rules =>
    cases v with
    | str s => exact .bind (.rules _ _) fun _ => .pure _
    | _ => exact .fail_here _ rfl
  | .literal value =>
    change Located v fun path => checkWith f (.literal value) v path
    simp only [checkWith]
    split_ifs
    · exact .pure _
    · exact .fail_here _ rfl
  | .enum values =>
    change Located v fun path => checkWith f (.enum values) v path
    simp only [checkWith]
    split_ifs
    · exact .pure _
    · exact .fail_here _ rfl
  | .array items bounds =>
    have member {xs : List Value} (hb : LocatedBelow f (Value.depthOfItems xs + 1))
        (parts : ∀ j x, xs[j]? = some x → Path.follow? [.index (0 + j)] v = some x) :
        ∀ x ∈ xs, Located x (items.checkWith f x) := by
      intro x hx
      obtain ⟨j, hj⟩ := List.getElem?_of_mem hx
      have distinct : x.DistinctKeys := hd.part (parts j x hj)
      have depth : x.depth < Value.depthOfItems xs + 1 := Value.depth_lt_of_mem_items hx
      exact located_checkWith items x distinct (hb x depth distinct) (hb.mono (Nat.le_of_lt depth))
    cases v with
    | list xs =>
      have parts (j : Nat) (x : Value) (hx : xs[j]? = some x) :
          Path.follow? [.index (0 + j)] (.list xs) = some x := by
        rw [Nat.zero_add, Path.follow?_index_list, hx]
        rfl
      exact .bind (.bounds _ _ _) fun _ =>
        .bind (.items 0 parts (member hb parts)) fun _ => .pure _
    | tuple xs =>
      have parts (j : Nat) (x : Value) (hx : xs[j]? = some x) :
          Path.follow? [.index (0 + j)] (.tuple xs) = some x := by
        rw [Nat.zero_add, Path.follow?_index_tuple, hx]
        rfl
      exact .bind (.bounds _ _ _) fun _ =>
        .bind (.items 0 parts (member hb parts)) fun _ => .pure _
    | _ => exact .fail_here _ rfl
  | .map values keys =>
    cases v with
    | object es =>
      refine .bind (.entries fun e he => ?_) fun _ => .pure _
      have reached := hd.follow?_entry he
      have depth : e.2.depth < Value.depthOfEntries es + 1 := Value.depth_lt_of_mem_entries he
      have keyDepth : (Value.str e.1).depth < Value.depthOfEntries es + 1 :=
        Nat.lt_of_le_of_lt (Value.depth_pos e.2) depth
      have key := (located_checkKey keys e.1 (hb.mono keyDepth)).move
        (q := [.key e.1]) (v := .object es) fun g hg => hg.under_key (by rw [reached]; rfl)
      have value := (located_checkWith values e.2 (hd.part reached)
        (hb e.2 depth (hd.part reached)) (hb.mono (Nat.le_of_lt depth))).at_part reached
      exact .bind key fun _ => value
    | _ => exact .fail_here _ rfl
  | .object fields extra closed =>
    cases v with
    | object es =>
      refine .bind (located_checkFields fields es hd hb) fun _ => ?_
      refine .bind (.entries fun e he => ?_) fun _ => .pure _
      have he := (List.mem_filter.mp he).1
      have reached := hd.follow?_entry he
      have depth : e.2.depth < Value.depthOfEntries es + 1 := Value.depth_lt_of_mem_entries he
      exact (located_checkExtra extra closed e.2 (hd.part reached)
        (hb e.2 depth (hd.part reached)) (hb.mono (Nat.le_of_lt depth))).at_part reached
    | _ => exact .fail_here _ rfl
  | .required inner => exact located_checkWith inner v hd hv hb
  | .withDefault inner _ => exact located_checkWith inner v hd hv hb
  | .nullable inner =>
    cases v with
    | null => exact .pure _
    | _ => exact located_checkWith inner _ hd hv hb
  | .anyOf alternatives description =>
    have all := located_checkAll alternatives v hd hv hb
    change Located v fun path => checkWith f (.anyOf alternatives description) v path
    simp only [checkWith_anyOf, checkAll_eq_map]
    exact .oneOf
      (fun last => .noAlternative description alternatives.length (last.map (·.nested))) all
      (fun last => by cases last <;> rfl) (fun p last => by cases last <;> rfl) none nofun
  | .bytes bounds =>
    exact .bind (.readBytes v) fun b => .bind (.bounds _ _ _) fun _ => .pure _
  | .ref target => exact hv target
  | .union targets =>
    cases v with
    | object es =>
      change Located _ fun path => checkWith f (.union targets) (.object es) path
      simp only [checkWith_union]
      split_ifs
      · exact .pure _
      · exact .oneOf (fun last => .noReference (targets.map (·.text)) (last.map (·.nested)))
          (fun target _ => hv target) (fun last => by cases last <;> rfl)
          (fun p last => by cases last <;> rfl) none nofun
    | _ => exact .fail_here _ rfl
  | .tagged tag variants fallback =>
    cases v with
    | object es =>
      change Located _ fun path => checkWith f (.tagged tag variants fallback) (.object es) path
      simp only [checkWith]
      rcases found : Entries.find? es tag with _ | kind
      · exact .fail (.missing found) rfl
      · have reached : Path.follow? [.key tag] (.object es) = some kind := by
          rw [Path.follow?_key, found]
          rfl
        dsimp only
        rcases chosen : kind.str?.bind (checkVariant f variants) with _ | check
        · exact located_checkFallback fallback _ rfl (.object es) reached hd hv hb
        · obtain ⟨name, -, hcheck⟩ := Option.bind_eq_some_iff.mp chosen
          exact located_checkVariant variants name (.object es) hcheck hd hv hb
    | _ => exact .fail_here _ rfl

theorem located_checkFields (fields : List (String × Schema)) (es : List (String × Value))
    (hd : (Value.object es).DistinctKeys) (hb : LocatedBelow f (Value.object es).depth) :
    Located (.object es) (checkFields f fields es) := by
  match fields with
  | [] => exact .pure _
  | (key, field) :: rest =>
    have others := located_checkFields rest es hd hb
    change Located _ fun path => checkFields f ((key, field) :: rest) es path
    simp only [checkFields]
    rcases found : Entries.find? es key with _ | x
    · rcases field.default? with _ | value
      · dsimp only
        split_ifs
        · exact .fail (.missing found) rfl
        · exact others
      · exact .bind others fun _ => .pure _
    · have reached : Path.follow? [.key key] (.object es) = some x := by
        rw [Path.follow?_key, found]
        rfl
      have depth : x.depth < (Value.object es).depth := Value.depth_lt_of_found found
      have value := (located_checkWith field x (hd.part reached) (hb x depth (hd.part reached))
        (hb.mono (Nat.le_of_lt depth))).at_part reached
      exact .bind value fun _ => .bind others fun _ => .pure _

theorem located_checkKey (keys : Option Schema) (key : String)
    (hb : LocatedBelow f ((Value.str key).depth + 1)) :
    Located (.str key) (checkKey f keys key) := by
  match keys with
  | none => exact .pure _
  | some keys =>
    have distinct := Value.distinctKeys_str key
    exact .bind (located_checkWith keys _ distinct (hb _ (Nat.lt_succ_self _) distinct)
      (hb.mono (Nat.le_succ _))) fun _ => .pure _

theorem located_checkExtra (extra : Option Schema) (closed : Bool) (v : Value)
    (hd : v.DistinctKeys) (hv : ∀ target, Located v (f target v)) (hb : LocatedBelow f v.depth) :
    Located v (checkExtra f extra closed v) := by
  match extra, closed with
  | none, true | some _, true => exact .fail_here _ rfl
  | none, false => exact .pure _
  | some extra, false => exact located_checkWith extra v hd hv hb

theorem located_checkAll (alternatives : List Schema) (v : Value) (hd : v.DistinctKeys)
    (hv : ∀ target, Located v (f target v)) (hb : LocatedBelow f v.depth) :
    ∀ s ∈ alternatives, Located v (s.checkWith f v) := by
  match alternatives with
  | [] => exact nofun
  | s :: rest =>
    exact List.forall_mem_cons.mpr
      ⟨located_checkWith s v hd hv hb, located_checkAll rest v hd hv hb⟩

theorem located_checkVariant (variants : List (String × Schema)) (kind : String) (v : Value)
    {check : Value → Path → Check Unit Value} (chosen : checkVariant f variants kind = some check)
    (hd : v.DistinctKeys) (hv : ∀ target, Located v (f target v)) (hb : LocatedBelow f v.depth) :
    Located v (check v) := by
  match variants with
  | [] => simp [checkVariant] at chosen
  | (k, s) :: rest =>
    unfold checkVariant at chosen
    split_ifs at chosen
    · obtain rfl := Option.some.inj chosen
      exact located_checkWith s v hd hv hb
    · exact located_checkVariant rest kind v chosen hd hv hb

theorem located_checkFallback (fallback : Option Schema) (problem : Problem)
    (uncaused : problem.cause? = none) (v : Value) {x : Value} {place : Path}
    (reached : Path.follow? place v = some x) (hd : v.DistinctKeys)
    (hv : ∀ target, Located v (f target v)) (hb : LocatedBelow f v.depth) :
    Located v fun p => checkFallback f fallback problem (p ++ place) v p := by
  match fallback with
  | none => exact .fail (.of_follow? (by rw [reached]; rfl)) uncaused
  | some fallback => exact located_checkWith fallback v hd hv hb

end

end Schema

end Lexicon
