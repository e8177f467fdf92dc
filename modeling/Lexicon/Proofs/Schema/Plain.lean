import Lexicon.Proofs.Schema.Accepts
import Lexicon.Proofs.Schema.Written
import Lexicon.Proofs.Value.Rearranged

/-!
# Plain schemas

A plain schema has no references, no choices, no defaults and no bytes, and its bounds are numbers.
Main statements: a plain schema accepts a value or finds a failure in it, and what it makes of a
value has the parts of the value, where at most the entries of objects have changed their places and
tuples have become lists.
-/

namespace Lexicon

/-! ### Plain schemas -/

/-- A failure of a value. -/
def Fault.IsFailure (e : Fault) : Prop :=
  ∃ f, e = .invalid f

/-- The bounds are numbers. -/
structure Bounds.Numeric (b : Bounds) : Prop where
  lower : ∀ bound, b.lower = some bound → bound.number?.isSome
  upper : ∀ bound, b.upper = some bound → bound.number?.isSome

instance (b : Bounds) : Decidable b.Numeric :=
  decidable_of_iff
    ((∀ bound ∈ b.lower, bound.number?.isSome) ∧ ∀ bound ∈ b.upper, bound.number?.isSome)
    ⟨fun h => ⟨h.1, h.2⟩, fun h => ⟨h.lower, h.upper⟩⟩

theorem Value.exists_below? {a b : Value} (ha : a.number?.isSome) (hb : b.number?.isSome) :
    ∃ smaller, a.below? b = some smaller := by
  obtain ⟨m, hm⟩ := Option.isSome_iff_exists.mp ha
  obtain ⟨n, hn⟩ := Option.isSome_iff_exists.mp hb
  rw [below?, hm, hn]
  exact ⟨_, rfl⟩

namespace Schema

/-- A schema without references, choices, defaults and bytes whose bounds are numbers. -/
inductive Plain : Schema → Prop
  | boolean : Plain .boolean
  | integer {bounds : Bounds} (numeric : bounds.Numeric) : Plain (.integer bounds)
  | string {rules : TextRules} (bytes : rules.bytes.Numeric)
      (graphemes : rules.graphemes.Numeric) : Plain (.string rules)
  | literal (value : Value) : Plain (.literal value)
  | enum (values : List Value) : Plain (.enum values)
  | array {items : Schema} {bounds : Bounds} (plain : Plain items) (numeric : bounds.Numeric) :
      Plain (.array items bounds)
  | map {values : Schema} (plain : Plain values) : Plain (.map values none)
  | object {fields : List (String × Schema)} {extra : Option Schema}
      (plain : ∀ e ∈ fields, Plain e.2) (others : ∀ s, extra = some s → Plain s) :
      Plain (.object fields extra false)
  | required {inner : Schema} (plain : Plain inner) : Plain (.required inner)
  | tagged {tag : String} {variants : List (String × Schema)} {fallback : Option Schema}
      (plain : ∀ e ∈ variants, Plain e.2) (others : ∀ s, fallback = some s → Plain s) :
      Plain (.tagged tag variants fallback)

variable {follow : Reference → Value → Path → Check Unit Value} {s : Schema}

theorem Plain.default?_eq_none (h : s.Plain) : s.default? = none := by
  induction h with
  | required _ ih => exact ih
  | _ => rfl

/-! ### Failures of plain schemas -/

@[simp] theorem faultsAre_fail {α : Type} (path : Path) (problem : Problem) :
    FaultsAre Fault.IsFailure (Check.fail path problem : Check Unit α).outcome :=
  FaultsAre.error_iff.mpr ⟨_, rfl⟩

theorem faultsAre_bind {α β : Type} {P : Fault → Prop} {x : Check Unit α}
    {f : α → Check Unit β} (hx : FaultsAre P x.outcome) (hf : ∀ a, FaultsAre P (f a).outcome) :
    FaultsAre P (x >>= f).outcome := by
  rw [Check.outcome_bind]
  exact .bind hx fun a _ => hf a

section Bounds

variable {P : Fault → Prop} (failures : ∀ e, Fault.IsFailure e → P e)

include failures

/-- Comparing a quantity with its bounds finds failures, unless a bound is no number. -/
theorem faultsAre_bounds_of {b : Bounds} (unsized : ¬ b.Numeric → P .wrongType)
    (quantity : Quantity) (n : Int) (path : Path) :
    FaultsAre P (b.check quantity (.int n) path : Check Unit Unit).outcome := by
  have known : (Value.int n).number?.isSome := rfl
  obtain ⟨lower, upper⟩ := b
  have above : FaultsAre P
      (Bounds.check ⟨none, upper⟩ quantity (.int n) path : Check Unit Unit).outcome := by
    cases upper with
    | none => exact .ok _
    | some high =>
      simp only [Bounds.check]
      rcases exceeds : high.below? (.int n) with _ | _ | _
      · refine FaultsAre.error_iff.mpr (unsized fun numeric => ?_)
        obtain ⟨_, compared⟩ := Value.exists_below? (numeric.upper high rfl) known
        simp [exceeds] at compared
      · exact .ok _
      · exact (faultsAre_fail _ _).imp failures
  cases lower with
  | none => exact above
  | some low =>
    simp only [Bounds.check]
    rcases falls : (Value.int n).below? low with _ | _ | _
    · refine faultsAre_bind (FaultsAre.error_iff.mpr (unsized fun numeric => ?_)) fun _ => above
      obtain ⟨_, compared⟩ := Value.exists_below? known (numeric.lower low rfl)
      simp [falls] at compared
    · exact above
    · exact faultsAre_bind ((faultsAre_fail _ _).imp failures) fun _ => above

/-- Checking a text finds failures, unless a bound of its lengths is no number. -/
theorem faultsAre_rules_of {rules : TextRules} (bytes : ¬ rules.bytes.Numeric → P .wrongType)
    (graphemes : ¬ rules.graphemes.Numeric → P .wrongType) (t : String) (path : Path) :
    FaultsAre P (rules.check t path : Check Unit Unit).outcome := by
  have failed {path : Path} {problem : Problem} :
      FaultsAre P (Check.fail path problem : Check Unit Unit).outcome :=
    (faultsAre_fail _ _).imp failures
  obtain ⟨format, pattern, byteBounds, graphemeBounds⟩ := rules
  have matched : FaultsAre P (TextRules.check ⟨none, pattern, byteBounds, graphemeBounds⟩ t path :
      Check Unit Unit).outcome := by
    have lengths := faultsAre_bind
      (faultsAre_bounds_of failures bytes .textBytes t.utf8ByteSize path)
      fun _ => faultsAre_bounds_of failures graphemes .graphemes (Text.Grapheme.count t.toList) path
    cases pattern with
    | none => exact lengths
    | some pattern =>
      simp only [TextRules.check]
      split_ifs
      · exact lengths
      · exact faultsAre_bind failed fun _ => lengths
  cases format with
  | none => exact matched
  | some format =>
    simp only [TextRules.check]
    split_ifs
    · exact matched
    · exact faultsAre_bind failed fun _ => matched

end Bounds

theorem faultsAre_bounds {b : Bounds} (h : b.Numeric) (quantity : Quantity) (n : Int)
    (path : Path) :
    FaultsAre Fault.IsFailure (b.check quantity (.int n) path : Check Unit Unit).outcome :=
  faultsAre_bounds_of (fun _ => id) (absurd h) quantity n path

theorem faultsAre_rules {rules : TextRules} (hbytes : rules.bytes.Numeric)
    (hgraphemes : rules.graphemes.Numeric) (t : String) (path : Path) :
    FaultsAre Fault.IsFailure (rules.check t path : Check Unit Unit).outcome :=
  faultsAre_rules_of (fun _ => id) (absurd hbytes) (absurd hgraphemes) t path

theorem faultsAre_checkItems {P : Fault → Prop} {check : Value → Path → Check Unit Value}
    {xs : List Value} (h : ∀ x ∈ xs, ∀ path, FaultsAre P (check x path).outcome) (path : Path)
    (i : Nat) : FaultsAre P (checkItems check path i xs).outcome := by
  induction xs generalizing i with
  | nil => exact .ok _
  | cons x rest ih =>
    refine faultsAre_bind (h x List.mem_cons_self _) fun _ => ?_
    exact faultsAre_bind (ih (fun y hy => h y (List.mem_cons_of_mem _ hy)) _) fun _ => .ok _

/-- A plain schema accepts a value or finds a failure in it. -/
theorem Plain.faultsAre (h : s.Plain) (v : Value) (path : Path) :
    FaultsAre Fault.IsFailure (s.checkWith follow v path).outcome := by
  induction h generalizing v path with
  | boolean =>
    cases v with
    | bool b => exact .ok _
    | _ => exact faultsAre_fail _ _
  | integer numeric =>
    cases v with
    | int n => exact faultsAre_bind (faultsAre_bounds numeric _ _ _) fun _ => .ok _
    | _ => exact faultsAre_fail _ _
  | string bytes graphemes =>
    cases v with
    | str t => exact faultsAre_bind (faultsAre_rules bytes graphemes _ _) fun _ => .ok _
    | _ => exact faultsAre_fail _ _
  | literal value =>
    simp only [checkWith]
    split_ifs
    · exact .ok _
    · exact faultsAre_fail _ _
  | enum values =>
    simp only [checkWith]
    split_ifs
    · exact .ok _
    · exact faultsAre_fail _ _
  | array _ numeric ih =>
    cases v with
    | list xs | tuple xs =>
      refine faultsAre_bind (faultsAre_bounds numeric _ _ _) fun _ => ?_
      exact faultsAre_bind (faultsAre_checkItems (fun x _ => ih x) _ _) fun _ => .ok _
    | _ => exact faultsAre_fail _ _
  | map _ ih =>
    cases v with
    | object es =>
      refine faultsAre_bind ?_ fun _ => .ok _
      rw [outcome_checkEntries]
      exact .mapM fun e _ => .map _ (ih _ _)
    | _ => exact faultsAre_fail _ _
  | @object fields extra plain _ ih ihOthers =>
    cases v with
    | object es =>
      rw [outcome_object]
      refine .bind (.mapM fun e he => ?_) fun _ _ =>
        .bind (.mapM fun e _ => .map _ ?_) fun _ _ => .ok _
      · unfold part
        split
        · exact .map _ (ih e he _ _)
        · rw [(plain e he).default?_eq_none]
          dsimp only
          split_ifs
          · exact FaultsAre.error_iff.mpr ⟨_, rfl⟩
          · exact .ok _
      · cases extra with
        | none => exact .ok _
        | some s => exact ihOthers s rfl _ _
    | _ => exact faultsAre_fail _ _
  | required _ ih => exact ih v path
  | tagged _ _ ih ihOthers =>
    rcases checkWith_tagged follow _ _ _ v path with
      ⟨_, _, failed⟩ | ⟨_, _, _, -, -, chosen, same⟩
    · rw [failed]
      exact faultsAre_fail _ _
    · rw [same]
      cases chosen with
      | variant _ hs => exact ih _ (Entries.mem_of_find?_eq_some hs) _ _
      | fallback _ hs => exact ihOthers _ hs _ _

/-- A plain schema gives a verdict on every value. -/
theorem Plain.exists_verdict (h : s.Plain) (v : Value) :
    ∃ verdict, s.plainVerdict v = .ok verdict := by
  change ∃ verdict, (Check.attempt (s.checkWith unfollowed v [])).outcome = .ok verdict
  rw [Check.outcome_attempt]
  cases hx : (s.checkWith unfollowed v []).outcome with
  | ok n => exact ⟨.ok n, rfl⟩
  | error e =>
    obtain ⟨f, rfl⟩ := h.faultsAre v [] e hx
    exact ⟨.error f, rfl⟩

/-! ### Results of plain schemas -/

theorem rearrangedEntries_of_forall₂ {es ms : Entries Value}
    (h : List.Forall₂ (fun e m : String × Value => m.1 = e.1 ∧ Value.Rearranged e.2 m.2) es ms) :
    Value.RearrangedEntries es ms where
  members m hm := by
    obtain ⟨e, he, key, part⟩ := h.exists_left hm
    exact ⟨e.2, key ▸ he, part⟩
  keys e he := by
    obtain ⟨m, hm, key, -⟩ := h.exists_right he
    exact key ▸ Entries.mem_keys_of_mem hm

/-- The result of the check of an object has the parts that were found under its declared keys and
the other entries. -/
theorem rearrangedEntries_of_parts {fields : List (String × Schema)} {es others : Entries Value}
    {path : Path} {parts : List (Option (String × Value))}
    (hparts : List.Forall₂ (fun e p => part follow es path e.1 e.2 = .ok p) fields parts)
    (plain : ∀ e ∈ fields, e.2.default? = none)
    (made : ∀ e ∈ fields, ∀ x y place, (e.2.checkWith follow x place).outcome = .ok y →
      Value.Rearranged x y)
    (hothers : List.Forall₂ (fun e m : String × Value => m.1 = e.1 ∧ Value.Rearranged e.2 m.2)
      (undeclared fields es) others) :
    Value.RearrangedEntries es (parts.filterMap id ++ others) where
  members m hm := by
    rcases List.mem_append.mp hm with hm | hm
    · obtain ⟨p, hp, hpm⟩ := List.mem_filterMap.mp hm
      obtain rfl : p = some m := hpm
      obtain ⟨e, he, hpart⟩ := hparts.exists_left hp
      obtain ⟨x, hx, hy⟩ := exists_found_of_part (plain e he) hpart
      rw [← key_of_part follow hpart] at hx
      exact ⟨x, Entries.mem_of_find?_eq_some hx, made e he _ _ _ hy⟩
    · obtain ⟨x, hx, part⟩ := (rearrangedEntries_of_forall₂ hothers).members m hm
      exact ⟨x, (List.mem_filter.mp hx).1, part⟩
  keys e he := by
    rw [Entries.keys, List.map_append, List.mem_append]
    by_cases declared : e.1 ∈ Entries.keys fields
    · obtain ⟨f, hf, key⟩ := List.mem_map.mp declared
      obtain ⟨p, hp, hpart⟩ := hparts.exists_right hf
      obtain ⟨x, hx⟩ := Option.isSome_iff_exists.mp
        (Entries.has_eq_true_iff.mpr (Entries.mem_keys_of_mem he))
      rw [part_of_found (key ▸ hx)] at hpart
      obtain ⟨y, -, rfl⟩ := Except.map_eq_ok_iff.mp hpart
      exact .inl (List.mem_map.mpr ⟨_, List.mem_filterMap.mpr ⟨_, hp, rfl⟩, key⟩)
    · refine .inr ((rearrangedEntries_of_forall₂ hothers).keys e (List.mem_filter.mpr ⟨he, ?_⟩))
      rw [Bool.not_eq_true', ← Bool.not_eq_true, Entries.has_eq_true_iff]
      exact declared

/-- What a plain schema makes of a value is the value rearranged. -/
theorem Plain.rearranged (h : s.Plain) {v n : Value} {path : Path}
    (hn : (s.checkWith follow v path).outcome = .ok n) : v.Rearranged n := by
  induction h generalizing v n path with
  | boolean => exact (Scalar.boolean.accepted hn).1 ▸ .refl v
  | integer => exact ((Scalar.integer _).accepted hn).1 ▸ .refl v
  | string => exact ((Scalar.string _).accepted hn).1 ▸ .refl v
  | literal => exact ((Scalar.literal _).accepted hn).1 ▸ .refl v
  | enum => exact ((Scalar.enum _).accepted hn).1 ▸ .refl v
  | array _ _ ih =>
    obtain ⟨xs, ys, hv, rfl, hys⟩ := forall₂_of_array hn
    exact .list hv (hys.imp fun x y ⟨_, hy⟩ => ih hy)
  | map _ ih =>
    obtain ⟨es, ms, rfl, rfl, hms⟩ := forall₂_of_map hn
    exact (rearrangedEntries_of_forall₂ (hms.imp fun e m ⟨key, _, hm⟩ => ⟨key, ih hm⟩)).object
  | @object fields extra plain _ ih ihOthers =>
    obtain ⟨es, parts, others, rfl, hparts, hothers, rfl⟩ := outcome_object_eq_ok_iff.mp hn
    refine (rearrangedEntries_of_parts hparts (fun e he => (plain e he).default?_eq_none)
      (fun e he _ _ _ hy => ih e he hy) (hothers.imp fun e m ⟨key, hm⟩ => ⟨key, ?_⟩)).object
    cases extra with
    | none => exact Except.ok.inj hm ▸ .refl _
    | some s => exact ihOthers s rfl hm
  | required _ ih => exact ih hn
  | tagged _ _ ih ihOthers =>
    rcases checkWith_tagged follow _ _ _ v path with
      ⟨_, _, failed⟩ | ⟨_, _, _, -, -, chosen, same⟩
    · rw [failed] at hn
      simp [Check.fail] at hn
    · rw [same] at hn
      cases chosen with
      | variant _ hs => exact ih _ (Entries.mem_of_find?_eq_some hs) hn
      | fallback _ hs => exact ihOthers _ hs hn

end Schema

end Lexicon
