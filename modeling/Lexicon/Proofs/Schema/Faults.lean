import Lexicon.Proofs.Schema.Decides
import Lexicon.Proofs.Schema.Links

/-!
# Faults of checks

What a check may end with besides a result. A schema finds failures in a value, and a bound that is
no number cannot be compared; everything else comes from the references that are followed. Main
statement: a property that failures have, and faults of the wrong type unless all bounds are
numbers, is one of all faults of a check, if it is one of the faults of the references in the schema
that are followed on the value itself and on the less deep values.
-/

namespace Lexicon

namespace Schema

/-! ### Parts of schemas -/

mutual

/-- The bounds in a schema. -/
def allBounds : Schema → List Bounds
  | .integer bounds | .bytes bounds => [bounds]
  | .string rules => [rules.bytes, rules.graphemes]
  | .array items bounds => bounds :: items.allBounds
  | .map values keys => values.allBounds ++ allBoundsOfOption keys
  | .object fields extra _ => allBoundsOfFields fields ++ allBoundsOfOption extra
  | .required inner | .nullable inner | .withDefault inner _ => inner.allBounds
  | .anyOf alternatives _ => allBoundsOfAll alternatives
  | .tagged _ variants fallback => allBoundsOfFields variants ++ allBoundsOfOption fallback
  | _ => []

/-- The bounds in the schemas of some fields. -/
def allBoundsOfFields : List (String × Schema) → List Bounds
  | [] => []
  | (_, s) :: rest => s.allBounds ++ allBoundsOfFields rest

/-- The bounds in some schemas. -/
def allBoundsOfAll : List Schema → List Bounds
  | [] => []
  | s :: rest => s.allBounds ++ allBoundsOfAll rest

/-- The bounds in a schema that there may be. -/
def allBoundsOfOption : Option Schema → List Bounds
  | none => []
  | some s => s.allBounds

end

mutual

/-- The references that a schema follows on the value itself, and not only on its parts. -/
def heads : Schema → List Reference
  | .ref target => [target]
  | .union targets => targets
  | .required inner | .nullable inner | .withDefault inner _ => inner.heads
  | .anyOf alternatives _ => headsOfAll alternatives
  | .tagged _ variants fallback => headsOfFields variants ++ headsOfOption fallback
  | _ => []

/-- The references that some variants follow on the value itself. -/
def headsOfFields : List (String × Schema) → List Reference
  | [] => []
  | (_, s) :: rest => s.heads ++ headsOfFields rest

/-- The references that some schemas follow on the value itself. -/
def headsOfAll : List Schema → List Reference
  | [] => []
  | s :: rest => s.heads ++ headsOfAll rest

/-- The references that a schema that there may be follows on the value itself. -/
def headsOfOption : Option Schema → List Reference
  | none => []
  | some s => s.heads

end

/-! ### Faults -/

section Faults

variable {P : Fault → Prop} {Q : Reference → Prop}
  {follow : Reference → Value → Path → Check Unit Value}

theorem faultsAre_checkEntries {check : String → Value → Path → Check Unit Value}
    {es : List (String × Value)}
    (h : ∀ e ∈ es, ∀ path, FaultsAre P (check e.1 e.2 path).outcome) (path : Path) :
    FaultsAre P (checkEntries check path es).outcome := by
  rw [outcome_checkEntries]
  exact .mapM fun e he => .map _ (h e he _)

theorem faultsAre_oneOf {α : Type} (failures : ∀ e, Fault.IsFailure e → P e)
    {last : Option Failure} {checks : List (Check Unit α)} {path : Path}
    {problem : Option Failure → Problem} (h : ∀ check ∈ checks, FaultsAre P check.outcome) :
    FaultsAre P (Check.oneOf last checks path problem).outcome := by
  induction checks generalizing last with
  | nil => exact (faultsAre_fail _ _).imp failures
  | cons check rest ih =>
    rw [List.forall_mem_cons] at h
    rw [Check.outcome_oneOf_cons]
    split
    · exact .ok _
    · exact ih h.2
    · next e he _ => exact FaultsAre.error_iff.mpr (h.1 _ ‹_›)

/-- Faults of some references to less deep values have a property. -/
def FaultsBelow (P : Fault → Prop) (Q : Reference → Prop)
    (follow : Reference → Value → Path → Check Unit Value) (depth : Nat) : Prop :=
  ∀ v : Value, v.depth < depth → ∀ target, Q target → ∀ path,
    FaultsAre P (follow target v path).outcome

theorem FaultsBelow.mono {m n : Nat} (h : FaultsBelow P Q follow n) (hmn : m ≤ n) :
    FaultsBelow P Q follow m :=
  fun v hv => h v (Nat.lt_of_lt_of_le hv hmn)

variable (failures : ∀ e, Fault.IsFailure e → P e)

include failures

-- in a mutual block what is included counts as unused where only a recursive call needs it
set_option linter.unusedSectionVars false in
mutual

/-- The faults of a check are failures, those of comparing with bounds that are no numbers, and
those of the references that are followed. -/
theorem faultsAre_checkWith (s : Schema) (v : Value) (path : Path)
    (unsized : ∀ b ∈ s.allBounds, ¬ b.Numeric → P .wrongType)
    (known : ∀ link ∈ s.links, ∀ t ∈ link.targets, Q t)
    (heads : ∀ target ∈ s.heads, Q target → FaultsAre P (follow target v path).outcome)
    (below : FaultsBelow P Q follow v.depth) : FaultsAre P (s.checkWith follow v path).outcome := by
  have failed {α : Type} {path : Path} {problem : Problem} :
      FaultsAre P (Check.fail path problem : Check Unit α).outcome :=
    (faultsAre_fail _ _).imp failures
  match s with
  | .any | .noop => exact .ok _
  | .boolean =>
    cases v with
    | bool _ => exact .ok _
    | _ => exact failed
  | .integer bounds =>
    have sized := unsized bounds (List.mem_singleton_self _)
    cases v with
    | int n => exact faultsAre_bind (faultsAre_bounds_of failures sized _ _ _) fun _ => .ok _
    | _ => exact failed
  | .string rules =>
    rw [allBounds, List.forall_mem_cons, List.forall_mem_singleton] at unsized
    cases v with
    | str t =>
      exact faultsAre_bind (faultsAre_rules_of failures unsized.1 unsized.2 _ _) fun _ => .ok _
    | _ => exact failed
  | .literal value =>
    simp only [checkWith]
    split_ifs
    · exact .ok _
    · exact failed
  | .enum values =>
    simp only [checkWith]
    split_ifs
    · exact .ok _
    · exact failed
  | .array items bounds =>
    rw [allBounds, List.forall_mem_cons] at unsized
    cases v with
    | list xs | tuple xs =>
      refine faultsAre_bind (faultsAre_bounds_of failures unsized.1 _ _ _) fun _ => ?_
      refine faultsAre_bind (faultsAre_checkItems (fun x hx path => ?_) _ _) fun _ => .ok _
      have hx : x.depth < Value.depthOfItems xs + 1 := Value.depth_lt_of_mem_items hx
      exact faultsAre_checkWith items x path unsized.2 known
        (fun target _ h => below x hx target h path) (below.mono (Nat.le_of_lt hx))
    | _ => exact failed
  | .map values keys =>
    rw [allBounds, List.forall_mem_append] at unsized
    rw [forall_links_map_iff] at known
    cases v with
    | object es =>
      refine faultsAre_bind (faultsAre_checkEntries (fun e he path => ?_) _) fun _ => .ok _
      have he : e.2.depth < Value.depthOfEntries es + 1 := Value.depth_lt_of_mem_entries he
      have hk : (Value.str e.1).depth < Value.depthOfEntries es + 1 :=
        Nat.lt_of_le_of_lt (Value.depth_pos e.2) he
      refine faultsAre_bind (faultsAre_checkKey keys e.1 path unsized.2 known.2 (below.mono hk))
        fun _ => ?_
      exact faultsAre_checkWith values e.2 path unsized.1 known.1
        (fun target _ h => below e.2 he target h path) (below.mono (Nat.le_of_lt he))
    | _ => exact failed
  | .object fields extra closed =>
    rw [allBounds, List.forall_mem_append] at unsized
    rw [forall_links_object_iff] at known
    cases v with
    | object es =>
      refine faultsAre_bind (faultsAre_checkFields fields es path unsized.1 known.1 below)
        fun _ => ?_
      refine faultsAre_bind (faultsAre_checkEntries (fun e he path => ?_) _) fun _ => .ok _
      have he : e.2.depth < Value.depthOfEntries es + 1 :=
        Value.depth_lt_of_mem_entries (List.mem_filter.mp he).1
      exact faultsAre_checkExtra extra closed e.2 path unsized.2 known.2
        (fun target h => below e.2 he target h path) (below.mono (Nat.le_of_lt he))
    | _ => exact failed
  | .required inner => exact faultsAre_checkWith inner v path unsized known heads below
  | .withDefault inner _ => exact faultsAre_checkWith inner v path unsized known heads below
  | .nullable inner =>
    cases v with
    | null => exact .ok _
    | _ => exact faultsAre_checkWith inner _ path unsized known heads below
  | .anyOf alternatives description =>
    rw [checkWith_anyOf]
    exact faultsAre_oneOf failures
      (faultsAre_checkAll alternatives v path unsized known heads below)
  | .bytes bounds =>
    have sized := unsized bounds (List.mem_singleton_self _)
    refine faultsAre_bind ((faultsAre_readBytes v path).imp failures) fun b => ?_
    exact faultsAre_bind (faultsAre_bounds_of failures sized _ _ _) fun _ => .ok _
  | .ref target =>
    have listed := List.mem_singleton_self target
    exact heads target listed (known _ (List.mem_singleton_self _) target listed)
  | .union targets =>
    cases v with
    | object es =>
      rw [checkWith_union]
      split_ifs
      · exact .ok _
      · refine faultsAre_oneOf failures (List.forall_mem_map.mpr fun target listed => ?_)
        exact heads target listed (known _ (List.mem_singleton_self _) target listed)
    | _ => exact failed
  | .tagged tag variants fallback =>
    rw [allBounds, List.forall_mem_append] at unsized
    rw [forall_links_tagged_iff] at known
    rw [Schema.heads, List.forall_mem_append] at heads
    cases v with
    | object es =>
      simp only [checkWith]
      rcases Entries.find? es tag with _ | kind
      · exact failed
      · dsimp only
        rcases chosen : kind.str?.bind (checkVariant follow variants) with _ | check
        · cases fallback with
          | none => exact failed
          | some fallback =>
            exact faultsAre_checkWith fallback _ path unsized.2 (known.2 fallback rfl) heads.2 below
        · obtain ⟨name, -, hcheck⟩ := Option.bind_eq_some_iff.mp chosen
          exact faultsAre_checkVariant variants name _ path unsized.1 known.1 heads.1 below check
            hcheck
    | _ => exact failed

theorem faultsAre_checkFields (fields : List (String × Schema)) (es : List (String × Value))
    (path : Path) (unsized : ∀ b ∈ allBoundsOfFields fields, ¬ b.Numeric → P .wrongType)
    (known : ∀ link ∈ linksOfFields fields, ∀ t ∈ link.targets, Q t)
    (below : FaultsBelow P Q follow (Value.object es).depth) :
    FaultsAre P (checkFields follow fields es path).outcome := by
  match fields with
  | [] => exact .ok _
  | (key, field) :: rest =>
    rw [allBoundsOfFields, List.forall_mem_append] at unsized
    rw [linksOfFields, List.forall_mem_append] at known
    have ih := faultsAre_checkFields rest es path unsized.2 known.2 below
    simp only [checkFields]
    rcases found : Entries.find? es key with _ | x
    · rcases field.default? with _ | value
      · dsimp only
        split_ifs
        · exact (faultsAre_fail _ _).imp failures
        · exact ih
      · exact faultsAre_bind ih fun _ => .ok _
    · have hx : x.depth < (Value.object es).depth := Value.depth_lt_of_found found
      refine faultsAre_bind ?_ fun _ => faultsAre_bind ih fun _ => .ok _
      exact faultsAre_checkWith field x _ unsized.1 known.1
        (fun target _ h => below x hx target h _) (below.mono (Nat.le_of_lt hx))

theorem faultsAre_checkKey (keys : Option Schema) (key : String) (path : Path)
    (unsized : ∀ b ∈ allBoundsOfOption keys, ¬ b.Numeric → P .wrongType)
    (known : ∀ s ∈ keys, ∀ link ∈ s.links, ∀ t ∈ link.targets, Q t)
    (below : FaultsBelow P Q follow ((Value.str key).depth + 1)) :
    FaultsAre P (checkKey follow keys key path).outcome := by
  match keys with
  | none => exact .ok _
  | some keys =>
    have hk : (Value.str key).depth < (Value.str key).depth + 1 := Nat.lt_succ_self _
    exact faultsAre_bind (faultsAre_checkWith keys _ path unsized (known keys rfl)
      (fun target _ h => below _ hk target h path) (below.mono (Nat.le_succ _))) fun _ => .ok _

theorem faultsAre_checkExtra (extra : Option Schema) (closed : Bool) (v : Value) (path : Path)
    (unsized : ∀ b ∈ allBoundsOfOption extra, ¬ b.Numeric → P .wrongType)
    (known : ∀ s ∈ extra, ∀ link ∈ s.links, ∀ t ∈ link.targets, Q t)
    (heads : ∀ target, Q target → FaultsAre P (follow target v path).outcome)
    (below : FaultsBelow P Q follow v.depth) :
    FaultsAre P (checkExtra follow extra closed v path).outcome := by
  match extra, closed with
  | none, true | some _, true => exact (faultsAre_fail _ _).imp failures
  | none, false => exact .ok _
  | some extra, false =>
    exact faultsAre_checkWith extra v path unsized (known extra rfl) (fun target _ => heads target)
      below

theorem faultsAre_checkAll (alternatives : List Schema) (v : Value) (path : Path)
    (unsized : ∀ b ∈ allBoundsOfAll alternatives, ¬ b.Numeric → P .wrongType)
    (known : ∀ link ∈ linksOfAll alternatives, ∀ t ∈ link.targets, Q t)
    (heads : ∀ target ∈ headsOfAll alternatives, Q target →
      FaultsAre P (follow target v path).outcome)
    (below : FaultsBelow P Q follow v.depth) :
    ∀ check ∈ checkAll follow alternatives v path, FaultsAre P check.outcome := by
  match alternatives with
  | [] => exact fun _ h => absurd h List.not_mem_nil
  | s :: rest =>
    rw [allBoundsOfAll, List.forall_mem_append] at unsized
    rw [linksOfAll, List.forall_mem_append] at known
    rw [headsOfAll, List.forall_mem_append] at heads
    rw [checkAll, List.forall_mem_cons]
    exact ⟨faultsAre_checkWith s v path unsized.1 known.1 heads.1 below,
      faultsAre_checkAll rest v path unsized.2 known.2 heads.2 below⟩

theorem faultsAre_checkVariant (variants : List (String × Schema)) (kind : String) (v : Value)
    (path : Path) (unsized : ∀ b ∈ allBoundsOfFields variants, ¬ b.Numeric → P .wrongType)
    (known : ∀ link ∈ linksOfFields variants, ∀ t ∈ link.targets, Q t)
    (heads : ∀ target ∈ headsOfFields variants, Q target →
      FaultsAre P (follow target v path).outcome)
    (below : FaultsBelow P Q follow v.depth) :
    ∀ check, checkVariant follow variants kind = some check →
      FaultsAre P (check v path).outcome := by
  match variants with
  | [] => exact fun _ h => by simp [checkVariant] at h
  | (k, s) :: rest =>
    rw [allBoundsOfFields, List.forall_mem_append] at unsized
    rw [linksOfFields, List.forall_mem_append] at known
    rw [headsOfFields, List.forall_mem_append] at heads
    intro check h
    simp only [checkVariant] at h
    split_ifs at h
    · rw [← Option.some.inj h]
      exact faultsAre_checkWith s v path unsized.1 known.1 heads.1 below
    · exact faultsAre_checkVariant rest kind v path unsized.2 known.2 heads.2 below check h

end

end Faults

end Schema

end Lexicon
