import Lexicon.Proofs.Outcome
import Lexicon.Schema.Check
import Mathlib.Tactic.SplitIfs

/-!
# Simulations of checks

A simulation relates two checks, perhaps over different states and at different paths, and is kept
by everything that a schema builds checks from: results, faults, failures, sequences and choices.
Main statement: if what two followers do with each reference is related, so is what any schema does
with a value under them. Properties of validation that hold of every schema are proved as
instances. A congruence is a simulation that keeps failures as they are.
-/

namespace Lexicon

/-- What a check ends with if it depends on no state. -/
def Check.outcome {α : Type} (check : Check Unit α) : Except Fault α :=
  (check.run ()).1

/-! ### Checks that use no state -/

section Stateless

variable {σ α β : Type}

@[simp] theorem Check.run_lift (result : Except Fault α) (s : σ) :
    (liftM result : Check σ α).run s = (result, s) := rfl

@[simp] theorem Check.outcome_pure (a : α) : Check.outcome (pure a) = .ok a := rfl

@[simp] theorem Check.outcome_throw (e : Fault) :
    Check.outcome (throw e : Check Unit α) = .error e := rfl

@[simp] theorem Check.outcome_lift (result : Except Fault α) :
    Check.outcome (liftM result) = result := rfl

theorem Check.outcome_bind (check : Check Unit α) (f : α → Check Unit β) :
    (check >>= f).outcome = check.outcome >>= fun a => (f a).outcome := by
  unfold Check.outcome
  rw [Check.run_bind]
  rcases check.run () with ⟨_ | a, _⟩ <;> rfl

@[simp] theorem Check.outcome_map (f : α → β) (check : Check Unit α) :
    (f <$> check).outcome = f <$> check.outcome := by
  rw [← bind_pure_comp, outcome_bind]
  cases check.outcome <;> rfl

theorem Check.outcome_attempt (check : Check Unit α) :
    (attempt check).outcome = match check.outcome with
      | .ok a => .ok (.ok a)
      | .error (.invalid f) => .ok (.error f)
      | .error e => .error e := by
  unfold Check.outcome
  rw [Check.run_attempt]
  rcases check.run () with ⟨(e | a), _⟩
  · cases e <;> rfl
  · rfl

end Stateless

/-- The result of the first check that does not fail, or a problem that depends on the last failure,
which is the one given if there is no check. -/
def Check.oneOf {σ α : Type} (last : Option Failure) (checks : List (Check σ α)) (path : Path)
    (problem : Option Failure → Problem) : Check σ α := do
  match ← Check.firstOf last checks with
  | .ok a => return a
  | .error last => Check.fail path (problem last)

/-- A choice takes the first result, and goes on only after a failure of the value. -/
theorem Check.outcome_oneOf_cons {α : Type} (last : Option Failure) (check : Check Unit α)
    (rest : List (Check Unit α)) (path : Path) (problem : Option Failure → Problem) :
    (oneOf last (check :: rest) path problem).outcome = match check.outcome with
      | .ok a => .ok a
      | .error (.invalid f) => (oneOf (some f) rest path problem).outcome
      | .error e => .error e := by
  simp only [oneOf, firstOf, bind_assoc]
  rw [outcome_bind, outcome_attempt]
  rcases check.outcome with e | a
  · cases e <;> rfl
  · rfl

theorem Schema.checkAll_eq_map {σ : Type} (follow : Reference → Value → Path → Check σ Value)
    (alternatives : List Schema) (v : Value) (path : Path) :
    checkAll follow alternatives v path = alternatives.map fun s => s.checkWith follow v path := by
  induction alternatives with
  | nil => rfl
  | cons s rest ih => rw [checkAll, ih, List.map_cons]

theorem Schema.checkWith_anyOf {σ : Type} (follow : Reference → Value → Path → Check σ Value)
    (alternatives : List Schema) (description : String) (v : Value) (path : Path) :
    checkWith follow (.anyOf alternatives description) v path =
      Check.oneOf none (checkAll follow alternatives v path) path fun last =>
        .noAlternative description alternatives.length (last.map (·.nested)) := by
  simp only [checkWith, Check.oneOf]
  congr 1
  funext result
  cases result <;> rfl

theorem Schema.checkWith_union {σ : Type} (follow : Reference → Value → Path → Check σ Value)
    (targets : List Reference) (es : Entries Value) (path : Path) :
    checkWith follow (.union targets) (.object es) path =
      if targets.isEmpty then pure (.object es)
      else Check.oneOf none (targets.map fun target => follow target (.object es) path) path
        fun last => .noReference (targets.map (·.text)) (last.map (·.nested)) := by
  simp only [checkWith, Check.oneOf]
  congr 2
  funext result
  cases result <;> rfl

/-- A relation between checks that everything a schema builds checks from respects. The two checks
may be made at different paths. -/
structure Check.Simulation (σ τ : Type) where
  rel : ∀ {α : Type}, Check σ α → Check τ α → Prop
  paths : Path → Path → Prop
  paths_append : ∀ {p q : Path} (step : Segment), paths p q → paths (p ++ [step]) (q ++ [step])
  rel_pure : ∀ {α : Type} (a : α), rel (pure a) (pure a)
  rel_throw : ∀ {α : Type} (e : Fault), rel (throw e : Check σ α) (throw e)
  rel_fail : ∀ {α : Type} {p q : Path} (problem : Problem), paths p q →
    rel (Check.fail p problem : Check σ α) (Check.fail q problem)
  rel_bind : ∀ {α β : Type} {x : Check σ α} {y : Check τ α} {f : α → Check σ β}
    {g : α → Check τ β}, rel x y → (∀ a, rel (f a) (g a)) → rel (x >>= f) (y >>= g)
  rel_oneOf : ∀ {α : Type} {xs : List (Check σ α)} {ys : List (Check τ α)} {p q : Path}
    (problem : Option Failure → Problem), List.Forall₂ rel xs ys → paths p q →
    rel (Check.oneOf none xs p problem) (Check.oneOf none ys q problem)

namespace Check.Simulation

variable {σ τ : Type} (C : Check.Simulation σ τ)

theorem rel_bounds (b : Bounds) (quantity : Quantity) (actual : Value) {p q : Path}
    (hpq : C.paths p q) : C.rel (b.check quantity actual p) (b.check quantity actual q) := by
  obtain ⟨lower, upper⟩ := b
  have above : C.rel (Bounds.check ⟨none, upper⟩ quantity actual p)
      (Bounds.check ⟨none, upper⟩ quantity actual q) := by
    cases upper with
    | none => exact C.rel_pure _
    | some high =>
      simp only [Bounds.check]
      rcases high.below? actual with _ | _ | _
      · exact C.rel_throw _
      · exact C.rel_pure _
      · exact C.rel_fail _ hpq
  cases lower with
  | none => exact above
  | some low =>
    simp only [Bounds.check]
    rcases actual.below? low with _ | _ | _
    · exact C.rel_bind (C.rel_throw _) fun _ => above
    · exact above
    · exact C.rel_bind (C.rel_fail _ hpq) fun _ => above

theorem rel_rules (rules : TextRules) (s : String) {p q : Path} (hpq : C.paths p q) :
    C.rel (rules.check s p) (rules.check s q) := by
  obtain ⟨format, pattern, bytes, graphemes⟩ := rules
  have matched : C.rel (TextRules.check ⟨none, pattern, bytes, graphemes⟩ s p)
      (TextRules.check ⟨none, pattern, bytes, graphemes⟩ s q) := by
    have lengths := C.rel_bind (C.rel_bounds bytes .textBytes (.int s.utf8ByteSize) hpq) fun _ =>
      C.rel_bounds graphemes .graphemes (.int (Text.Grapheme.count s.toList)) hpq
    cases pattern with
    | none => exact lengths
    | some pattern =>
      simp only [TextRules.check]
      split_ifs
      · exact lengths
      · exact C.rel_bind (C.rel_fail _ hpq) fun _ => lengths
  cases format with
  | none => exact matched
  | some format =>
    simp only [TextRules.check]
    split_ifs
    · exact matched
    · exact C.rel_bind (C.rel_fail _ hpq) fun _ => matched

theorem rel_readBytes (v : Value) {p q : Path} (hpq : C.paths p q) :
    C.rel (readBytes v p) (readBytes v q) := by
  unfold readBytes
  cases v with
  | bytes b => exact C.rel_pure _
  | object entries =>
    dsimp only
    rcases Entries.find? entries "$bytes" with _ | found
    · exact C.rel_fail _ hpq
    · cases found with
      | str s =>
        dsimp only
        rcases Text.Base64.decode? s.toList with _ | b
        · exact C.rel_fail _ (C.paths_append _ hpq)
        · exact C.rel_pure _
      | _ => exact C.rel_fail _ hpq
  | _ => exact C.rel_fail _ hpq

theorem rel_checkItems {c : Value → Path → Check σ Value} {d : Value → Path → Check τ Value}
    {xs : List Value} (h : ∀ x ∈ xs, ∀ p q, C.paths p q → C.rel (c x p) (d x q)) {p q : Path}
    (hpq : C.paths p q) (i : Nat) : C.rel (checkItems c p i xs) (checkItems d q i xs) := by
  induction xs generalizing i with
  | nil => exact C.rel_pure _
  | cons x xs ih =>
    refine C.rel_bind (h x List.mem_cons_self _ _ (C.paths_append _ hpq)) fun y => ?_
    refine C.rel_bind (ih (fun z hz => h z (List.mem_cons_of_mem _ hz)) _) fun ys => ?_
    exact C.rel_pure _

theorem rel_checkEntries {c : String → Value → Path → Check σ Value}
    {d : String → Value → Path → Check τ Value} {es : List (String × Value)}
    (h : ∀ e ∈ es, ∀ p q, C.paths p q → C.rel (c e.1 e.2 p) (d e.1 e.2 q)) {p q : Path}
    (hpq : C.paths p q) : C.rel (checkEntries c p es) (checkEntries d q es) := by
  induction es with
  | nil => exact C.rel_pure _
  | cons e rest ih =>
    refine C.rel_bind (h e List.mem_cons_self _ _ (C.paths_append _ hpq)) fun y => ?_
    refine C.rel_bind (ih fun z hz => h z (List.mem_cons_of_mem _ hz)) fun ys => ?_
    exact C.rel_pure _

/-! ### Schemas

Two followers are compared on the value that is checked, at the paths of the check, and on all
values that are less deep: a schema follows references on nothing else. -/

variable {f : Reference → Value → Path → Check σ Value}
  {g : Reference → Value → Path → Check τ Value}

/-- The followers are related on all values of smaller depth. -/
def Below (f : Reference → Value → Path → Check σ Value)
    (g : Reference → Value → Path → Check τ Value) (depth : Nat) : Prop :=
  ∀ v : Value, v.depth < depth → ∀ target p q, C.paths p q →
    C.rel (f target v p) (g target v q)

theorem Below.mono {C : Check.Simulation σ τ} {m n : Nat} (h : C.Below f g n) (hmn : m ≤ n) :
    C.Below f g m :=
  fun v hv => h v (Nat.lt_of_lt_of_le hv hmn)

mutual

/-- What a schema does with a value is related if what the followers do is. -/
theorem rel_checkWith (s : Schema) (v : Value) {p q : Path} (hpq : C.paths p q)
    (hv : ∀ target, C.rel (f target v p) (g target v q)) (hb : C.Below f g v.depth) :
    C.rel (s.checkWith f v p) (s.checkWith g v q) := by
  match s with
  | .any | .noop => exact C.rel_pure v
  | .boolean =>
    cases v with
    | bool _ => exact C.rel_pure _
    | _ => exact C.rel_fail _ hpq
  | .integer bounds =>
    cases v with
    | int _ => exact C.rel_bind (C.rel_bounds _ _ _ hpq) fun _ => C.rel_pure _
    | _ => exact C.rel_fail _ hpq
  | .string rules =>
    cases v with
    | str s => exact C.rel_bind (C.rel_rules _ _ hpq) fun _ => C.rel_pure _
    | _ => exact C.rel_fail _ hpq
  | .literal value =>
    simp only [Schema.checkWith]
    split_ifs
    · exact C.rel_pure _
    · exact C.rel_fail _ hpq
  | .enum values =>
    simp only [Schema.checkWith]
    split_ifs
    · exact C.rel_pure _
    · exact C.rel_fail _ hpq
  | .array items bounds =>
    cases v with
    | list xs | tuple xs =>
      refine C.rel_bind (C.rel_bounds _ _ _ hpq) fun _ => ?_
      refine C.rel_bind (C.rel_checkItems (fun x hx p q hpq => ?_) hpq _) fun _ => C.rel_pure _
      have hx : x.depth < Value.depthOfItems xs + 1 := Value.depth_lt_of_mem_items hx
      exact rel_checkWith items x hpq (fun target => hb x hx target p q hpq)
        (hb.mono (Nat.le_of_lt hx))
    | _ => exact C.rel_fail _ hpq
  | .map values keys =>
    cases v with
    | object es =>
      refine C.rel_bind (C.rel_checkEntries (fun e he p q hpq => ?_) hpq) fun _ => C.rel_pure _
      have he : e.2.depth < Value.depthOfEntries es + 1 := Value.depth_lt_of_mem_entries he
      have hk : (Value.str e.1).depth < Value.depthOfEntries es + 1 :=
        Nat.lt_of_le_of_lt (Value.depth_pos e.2) he
      refine C.rel_bind (rel_checkKey keys e.1 hpq (hb.mono hk)) fun _ => ?_
      exact rel_checkWith values e.2 hpq (fun target => hb e.2 he target p q hpq)
        (hb.mono (Nat.le_of_lt he))
    | _ => exact C.rel_fail _ hpq
  | .object fields extra closed =>
    cases v with
    | object es =>
      refine C.rel_bind (rel_checkFields fields es hpq hb) fun _ => ?_
      refine C.rel_bind (C.rel_checkEntries (fun e he p q hpq => ?_) hpq) fun _ => C.rel_pure _
      have he : e.2.depth < Value.depthOfEntries es + 1 :=
        Value.depth_lt_of_mem_entries (List.mem_filter.mp he).1
      exact rel_checkExtra extra closed e.2 hpq (fun target => hb e.2 he target p q hpq)
        (hb.mono (Nat.le_of_lt he))
    | _ => exact C.rel_fail _ hpq
  | .required inner => exact rel_checkWith inner v hpq hv hb
  | .withDefault inner _ => exact rel_checkWith inner v hpq hv hb
  | .nullable inner =>
    cases v with
    | null => exact C.rel_pure _
    | _ => exact rel_checkWith inner _ hpq hv hb
  | .anyOf alternatives description =>
    rw [Schema.checkWith_anyOf, Schema.checkWith_anyOf]
    exact C.rel_oneOf _ (rel_checkAll alternatives v hpq hv hb) hpq
  | .bytes bounds =>
    refine C.rel_bind (C.rel_readBytes _ hpq) fun b => ?_
    exact C.rel_bind (C.rel_bounds _ _ _ hpq) fun _ => C.rel_pure _
  | .ref target => exact hv target
  | .union targets =>
    cases v with
    | object es =>
      rw [Schema.checkWith_union, Schema.checkWith_union]
      split_ifs
      · exact C.rel_pure _
      · refine C.rel_oneOf _ ?_ hpq
        rw [List.forall₂_map_left_iff, List.forall₂_map_right_iff, List.forall₂_same]
        exact fun target _ => hv target
    | _ => exact C.rel_fail _ hpq
  | .tagged tag variants fallback =>
    cases v with
    | object es =>
      simp only [Schema.checkWith]
      rcases Entries.find? es tag with _ | kind
      · exact C.rel_fail _ (C.paths_append _ hpq)
      · have chosen : Option.Rel (fun c d => C.rel (c (.object es) p) (d (.object es) q))
            (kind.str?.bind (Schema.checkVariant f variants))
            (kind.str?.bind (Schema.checkVariant g variants)) := by
          cases kind.str? with
          | none => exact .none
          | some name => exact rel_checkVariant variants name (.object es) hpq hv hb
        dsimp only
        generalize kind.str?.bind (Schema.checkVariant f variants) = left at chosen ⊢
        generalize kind.str?.bind (Schema.checkVariant g variants) = right at chosen ⊢
        cases chosen with
        | some h => exact h
        | none =>
          exact rel_checkFallback fallback _ (C.paths_append _ hpq) (.object es) hpq hv hb
    | _ => exact C.rel_fail _ hpq

theorem rel_checkFields (fields : List (String × Schema)) (es : List (String × Value))
    {p q : Path} (hpq : C.paths p q) (hb : C.Below f g (Value.object es).depth) :
    C.rel (Schema.checkFields f fields es p) (Schema.checkFields g fields es q) := by
  match fields with
  | [] => exact C.rel_pure _
  | (key, field) :: rest =>
    have ih := rel_checkFields rest es hpq hb
    simp only [Schema.checkFields]
    rcases found : Entries.find? es key with _ | x
    · rcases field.default? with _ | value
      · dsimp only
        split_ifs
        · exact C.rel_fail _ (C.paths_append _ hpq)
        · exact ih
      · exact C.rel_bind ih fun _ => C.rel_pure _
    · have hx : x.depth < (Value.object es).depth := Value.depth_lt_of_found found
      have hpath := C.paths_append (.key key) hpq
      refine C.rel_bind ?_ fun _ => C.rel_bind ih fun _ => C.rel_pure _
      exact rel_checkWith field x hpath (fun target => hb x hx target _ _ hpath)
        (hb.mono (Nat.le_of_lt hx))

theorem rel_checkKey (keys : Option Schema) (key : String) {p q : Path} (hpq : C.paths p q)
    (hb : C.Below f g ((Value.str key).depth + 1)) :
    C.rel (Schema.checkKey f keys key p) (Schema.checkKey g keys key q) := by
  match keys with
  | none => exact C.rel_pure _
  | some keys =>
    have hk : (Value.str key).depth < (Value.str key).depth + 1 := Nat.lt_succ_self _
    exact C.rel_bind (rel_checkWith keys _ hpq (fun target => hb _ hk target p q hpq)
      (hb.mono (Nat.le_succ _))) fun _ => C.rel_pure _

theorem rel_checkExtra (extra : Option Schema) (closed : Bool) (v : Value) {p q : Path}
    (hpq : C.paths p q) (hv : ∀ target, C.rel (f target v p) (g target v q))
    (hb : C.Below f g v.depth) :
    C.rel (Schema.checkExtra f extra closed v p) (Schema.checkExtra g extra closed v q) := by
  match extra, closed with
  | none, true | some _, true => exact C.rel_fail _ hpq
  | none, false => exact C.rel_pure _
  | some extra, false => exact rel_checkWith extra v hpq hv hb

theorem rel_checkAll (alternatives : List Schema) (v : Value) {p q : Path} (hpq : C.paths p q)
    (hv : ∀ target, C.rel (f target v p) (g target v q)) (hb : C.Below f g v.depth) :
    List.Forall₂ C.rel (Schema.checkAll f alternatives v p)
      (Schema.checkAll g alternatives v q) := by
  match alternatives with
  | [] => exact .nil
  | s :: rest => exact .cons (rel_checkWith s v hpq hv hb) (rel_checkAll rest v hpq hv hb)

theorem rel_checkVariant (variants : List (String × Schema)) (kind : String) (v : Value)
    {p q : Path} (hpq : C.paths p q) (hv : ∀ target, C.rel (f target v p) (g target v q))
    (hb : C.Below f g v.depth) :
    Option.Rel (fun c d => C.rel (c v p) (d v q)) (Schema.checkVariant f variants kind)
      (Schema.checkVariant g variants kind) := by
  match variants with
  | [] => exact .none
  | (k, s) :: rest =>
    simp only [Schema.checkVariant]
    split_ifs
    · exact .some (rel_checkWith s v hpq hv hb)
    · exact rel_checkVariant rest kind v hpq hv hb

theorem rel_checkFallback (fallback : Option Schema) (problem : Problem) {place place' : Path}
    (hplace : C.paths place place') (v : Value) {p q : Path} (hpq : C.paths p q)
    (hv : ∀ target, C.rel (f target v p) (g target v q)) (hb : C.Below f g v.depth) :
    C.rel (Schema.checkFallback f fallback problem place v p)
      (Schema.checkFallback g fallback problem place' v q) := by
  match fallback with
  | none => exact C.rel_fail _ hplace
  | some fallback => exact rel_checkWith fallback v hpq hv hb

end

end Check.Simulation

/-! ### States before and after -/

section

variable {σ α β : Type}

/-- What holds between the states before and after each of two checks, and composes, holds between
those before and after both, even where the first one ends with a fault. -/
theorem Check.run_bind_relates (R : σ → σ → Prop) (trans : ∀ {a b c : σ}, R a b → R b c → R a c)
    {x : Check σ α} {f : α → Check σ β} {s : σ} (hx : R s (x.run s).2)
    (hf : ∀ a s', R s' ((f a).run s').2) : R s ((x >>= f).run s).2 := by
  rw [run_bind]
  generalize x.run s = result at hx ⊢
  rcases result with ⟨_ | a, s'⟩
  · exact hx
  · exact trans hx (hf a s')

/-- An attempt leaves the state that the check leaves. -/
theorem Check.snd_run_attempt (x : Check σ α) (s : σ) :
    ((attempt x).run s).2 = (x.run s).2 := by
  rw [run_attempt]
  rcases x.run s with ⟨e | a, s'⟩
  · cases e <;> rfl
  · rfl

end

/-! ### Congruences -/

/-- A relation between checks that results, faults, sequences and attempts respect. -/
structure Check.Congruence (σ τ : Type) where
  rel : ∀ {α : Type}, Check σ α → Check τ α → Prop
  rel_pure : ∀ {α : Type} (a : α), rel (pure a) (pure a)
  rel_throw : ∀ {α : Type} (e : Fault), rel (throw e : Check σ α) (throw e)
  rel_bind : ∀ {α β : Type} {x : Check σ α} {y : Check τ α} {f : α → Check σ β}
    {g : α → Check τ β}, rel x y → (∀ a, rel (f a) (g a)) → rel (x >>= f) (y >>= g)
  rel_attempt : ∀ {α : Type} {x : Check σ α} {y : Check τ α}, rel x y →
    rel (Check.attempt x) (Check.attempt y)

namespace Check.Congruence

variable {σ τ : Type} (C : Check.Congruence σ τ)

theorem rel_fail {α : Type} (path : Path) (problem : Problem) :
    C.rel (Check.fail path problem : Check σ α) (Check.fail path problem) :=
  C.rel_throw _

theorem rel_lift {α : Type} (result : Except Fault α) :
    C.rel (liftM result : Check σ α) (liftM result) := by
  cases result with
  | ok a => exact C.rel_pure a
  | error e => exact C.rel_throw e

theorem rel_firstOf {α : Type} {xs : List (Check σ α)} {ys : List (Check τ α)}
    (h : List.Forall₂ C.rel xs ys) (last : Option Failure) :
    C.rel (Check.firstOf last xs) (Check.firstOf last ys) := by
  induction h generalizing last with
  | nil => exact C.rel_pure _
  | cons hxy _ ih =>
    refine C.rel_bind (C.rel_attempt hxy) fun outcome => ?_
    cases outcome with
    | ok a => exact C.rel_pure _
    | error f => exact ih (some f)

/-- A congruence is a simulation at one path. -/
def toSimulation : Check.Simulation σ τ where
  rel := C.rel
  paths := Eq
  paths_append _ h := h ▸ rfl
  rel_pure := C.rel_pure
  rel_throw := C.rel_throw
  rel_fail problem h := h ▸ C.rel_fail _ problem
  rel_bind := C.rel_bind
  rel_oneOf problem h hpq := by
    subst hpq
    refine C.rel_bind (C.rel_firstOf h none) fun result => ?_
    cases result with
    | ok a => exact C.rel_pure _
    | error last => exact C.rel_fail _ _

/-- What a schema does with a value is related if what the followers do with it and with all values
of smaller depth is. -/
theorem rel_checkWith {f : Reference → Value → Path → Check σ Value}
    {g : Reference → Value → Path → Check τ Value} (s : Schema) (v : Value) (path : Path)
    (hv : ∀ target, C.rel (f target v path) (g target v path))
    (hb : ∀ v' : Value, v'.depth < v.depth → ∀ target p, C.rel (f target v' p) (g target v' p)) :
    C.rel (s.checkWith f v path) (s.checkWith g v path) :=
  C.toSimulation.rel_checkWith s v rfl hv fun v' hv' target _ _ hpq => hpq ▸ hb v' hv' target _

theorem rel_checkWith_of_rel {f : Reference → Value → Path → Check σ Value}
    {g : Reference → Value → Path → Check τ Value}
    (h : ∀ target v path, C.rel (f target v path) (g target v path)) (s : Schema) (v : Value)
    (path : Path) : C.rel (s.checkWith f v path) (s.checkWith g v path) :=
  C.rel_checkWith s v path (fun target => h target v path) fun v' _ target p => h target v' p

end Check.Congruence

end Lexicon
