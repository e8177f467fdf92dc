import Lexicon.Proofs.Check.Located
import Lexicon.Proofs.Schema.Decides
import Lexicon.Proofs.Schema.Lasting
import Lexicon.Proofs.Value.Same

/-!
# Schemas that uphold each other

A schema upholds another one if it refuses nothing that the other accepts, whatever else either of
them may end with. Main statements: one lemma for each kind of node on what its parts have to
uphold for the node to do so; the fields of objects and the targets of unions may stand in any
order, and a bound may be another value that compares alike.
-/

namespace Lexicon

/-! ### Bounds and rules for texts -/

/-- Two bounds that compare alike with every integer, or two that are absent. -/
def Bounds.AlikeLimits : Option Value → Option Value → Prop :=
  Option.Rel fun x y => ∀ n : Int,
    (Value.int n).below? x = (Value.int n).below? y ∧ x.below? (.int n) = y.below? (.int n)

/-- Bounds that the same integers lie within. -/
structure Bounds.Alike (b b' : Bounds) : Prop where
  lower : AlikeLimits b.lower b'.lower
  upper : AlikeLimits b.upper b'.upper

theorem Bounds.alikeLimits_refl : ∀ limit, AlikeLimits limit limit
  | none => .none
  | some _ => .some fun _ => ⟨rfl, rfl⟩

theorem Bounds.alike_refl (b : Bounds) : b.Alike b :=
  ⟨alikeLimits_refl _, alikeLimits_refl _⟩

theorem Bounds.Alike.check {b b' : Bounds} (h : b.Alike b') {quantity : Quantity} {n : Int}
    {path : Path} (within : (b.check quantity (.int n) path : Check Unit Unit).outcome = .ok ()) :
    (b'.check quantity (.int n) path : Check Unit Unit).outcome = .ok () := by
  obtain ⟨lower, upper⟩ := b
  obtain ⟨lower', upper'⟩ := b'
  obtain ⟨low, high⟩ := h
  rw [outcome_check] at within ⊢
  constructor
  · intro y hy
    cases low with
    | none => cases hy
    | some same =>
      rw [← Option.some.inj hy, ← (same n).1]
      exact within.1 _ rfl
  · intro y hy
    cases high with
    | none => cases hy
    | some same =>
      rw [← Option.some.inj hy, ← (same n).2]
      exact within.2 _ rfl

/-- Rules that the same texts keep. -/
structure TextRules.Alike (rules rules' : TextRules) : Prop where
  format : rules.format = rules'.format
  pattern : Option.Rel (fun p q => ∀ t, p.accepts t = q.accepts t) rules.pattern rules'.pattern
  bytes : rules.bytes.Alike rules'.bytes
  graphemes : rules.graphemes.Alike rules'.graphemes

theorem TextRules.alike_refl (rules : TextRules) : rules.Alike rules where
  format := rfl
  pattern := by
    cases rules.pattern with
    | none => exact .none
    | some p => exact .some fun _ => rfl
  bytes := Bounds.alike_refl _
  graphemes := Bounds.alike_refl _

theorem TextRules.Alike.check {rules rules' : TextRules} (h : rules.Alike rules') {t : String}
    {path : Path} (kept : (rules.check t path : Check Unit Unit).outcome = .ok ()) :
    (rules'.check t path : Check Unit Unit).outcome = .ok () := by
  obtain ⟨format, pattern, bytes, graphemes⟩ := rules
  obtain ⟨format', pattern', bytes', graphemes'⟩ := rules'
  obtain ⟨rfl, patterns, sizes, counts⟩ := h
  rw [outcome_check] at kept ⊢
  obtain ⟨formatted, matched, sized, counted⟩ := kept
  refine ⟨formatted, ?_, sizes.check sized, counts.check counted⟩
  intro q hq
  cases patterns with
  | none => cases hq
  | some same =>
    rw [← Option.some.inj hq, ← same t]
    exact matched _ rfl

namespace Schema

variable (follow follow' : Reference → Value → Path → Check Unit Value)

/-- The second schema refuses nothing that the first accepts. -/
def Upholds (s s' : Schema) : Prop :=
  ∀ ⦃v m : Value⦄ ⦃path : Path⦄, (s.checkWith follow v path).outcome = .ok m →
    NoFailure (s'.checkWith follow' v path).outcome

variable {follow follow'} {s s' : Schema}

/-! ### Single values -/

theorem upholds_any : Upholds follow follow' s .any := by
  intro v m path _
  exact NoFailure.ok v

theorem upholds_noop : Upholds follow follow' s .noop := by
  intro v m path _
  exact NoFailure.ok v

theorem upholds_boolean : Upholds follow follow' .boolean .boolean := by
  intro v m path hm
  cases v with
  | bool b => exact NoFailure.ok _
  | _ => cases hm

theorem upholds_integer {bounds bounds' : Bounds} (h : bounds.Alike bounds') :
    Upholds follow follow' (.integer bounds) (.integer bounds') := by
  intro v m path hm
  cases v with
  | int n =>
    rw [checkWith, Check.outcome_bind] at hm ⊢
    obtain ⟨⟨⟩, within, _⟩ := Except.bind_eq_ok_iff.mp hm
    rw [h.check within]
    exact NoFailure.ok _
  | _ =>
    rw [checkWith] at hm
    · cases hm
    all_goals simp

theorem upholds_string {rules rules' : TextRules} (h : rules.Alike rules') :
    Upholds follow follow' (.string rules) (.string rules') := by
  intro v m path hm
  cases v with
  | str t =>
    rw [checkWith, Check.outcome_bind] at hm ⊢
    obtain ⟨⟨⟩, kept, _⟩ := Except.bind_eq_ok_iff.mp hm
    rw [h.check kept]
    exact NoFailure.ok _
  | _ =>
    rw [checkWith] at hm
    · cases hm
    all_goals simp

theorem upholds_literal {x y : Value}
    (h : ∀ v : Value, v.identical x = true → v.identical y = true) :
    Upholds follow follow' (.literal x) (.literal y) := by
  intro v m path hm
  rw [checkWith] at hm ⊢
  split_ifs at hm with same
  · rw [if_pos (h v same)]
    exact NoFailure.ok _
  · cases hm

theorem upholds_enum {xs ys : List Value}
    (h : ∀ v : Value, xs.any v.identical = true → ys.any v.identical = true) :
    Upholds follow follow' (.enum xs) (.enum ys) := by
  intro v m path hm
  rw [checkWith] at hm ⊢
  split_ifs at hm with same
  · rw [if_pos (h v same)]
    exact NoFailure.ok _
  · cases hm

theorem upholds_bytes {bounds bounds' : Bounds} (h : bounds.Alike bounds') :
    Upholds follow follow' (.bytes bounds) (.bytes bounds') := by
  intro v m path hm
  rw [checkWith, Check.outcome_bind] at hm ⊢
  obtain ⟨b, hb, hm⟩ := Except.bind_eq_ok_iff.mp hm
  rw [Check.outcome_bind] at hm
  obtain ⟨⟨⟩, within, _⟩ := Except.bind_eq_ok_iff.mp hm
  rw [hb, Except.ok_bind, Check.outcome_bind, h.check within]
  exact NoFailure.ok _

/-! ### Marks and arrays -/

theorem Upholds.required (h : Upholds follow follow' s s') :
    Upholds follow follow' (.required s) (.required s') := by
  intro v m path hm
  rw [checkWith] at hm ⊢
  exact h hm

theorem Upholds.withDefault (h : Upholds follow follow' s s') (x y : Value) :
    Upholds follow follow' (.withDefault s x) (.withDefault s' y) := by
  intro v m path hm
  rw [checkWith] at hm ⊢
  exact h hm

theorem Upholds.nullable (h : Upholds follow follow' s s') :
    Upholds follow follow' (.nullable s) (.nullable s') := by
  intro v m path hm
  by_cases null : v = .null
  · rw [null]
    exact NoFailure.ok _
  · rw [checkWith_nullable null] at hm ⊢
    exact h hm

private theorem upholds_items (h : Upholds follow follow' s s') {path : Path} {i : Nat}
    {xs ys : List Value} (hys : (checkItems (checkWith follow s) path i xs).outcome = .ok ys) :
    NoFailure (checkItems (checkWith follow' s') path i xs).outcome := by
  induction xs generalizing i ys with
  | nil => exact NoFailure.ok _
  | cons x xs ih =>
    rw [checkItems, Check.outcome_bind] at hys ⊢
    obtain ⟨y, hy, hys⟩ := Except.bind_eq_ok_iff.mp hys
    rw [Check.outcome_bind] at hys
    obtain ⟨rest, hrest, _⟩ := Except.bind_eq_ok_iff.mp hys
    apply (h hy).bind
    intro _
    rw [Check.outcome_bind]
    apply (ih hrest).bind
    intro _
    exact NoFailure.ok _

theorem Upholds.array (h : Upholds follow follow' s s') {bounds bounds' : Bounds}
    (alike : bounds.Alike bounds') :
    Upholds follow follow' (.array s bounds) (.array s' bounds') := by
  intro v m path hm
  cases v with
  | list xs | tuple xs =>
    rw [checkWith, Check.outcome_bind] at hm ⊢
    obtain ⟨⟨⟩, within, hm⟩ := Except.bind_eq_ok_iff.mp hm
    rw [Check.outcome_bind] at hm
    obtain ⟨ys, hys, _⟩ := Except.bind_eq_ok_iff.mp hm
    rw [alike.check within, Except.ok_bind, Check.outcome_bind]
    apply (upholds_items h hys).bind
    intro _
    exact NoFailure.ok _
  | _ =>
    rw [checkWith] at hm
    · cases hm
    all_goals simp

/-! ### Choices -/

theorem upholds_anyOf {ss ss' : List Schema} {description description' : String}
    (h : List.Forall₂ (Upholds follow follow') ss ss') :
    Upholds follow follow' (.anyOf ss description) (.anyOf ss' description') := by
  intro v m path hm
  rw [checkWith_anyOf, checkAll_eq_map] at hm ⊢
  obtain ⟨check, hcheck, made⟩ := Check.exists_of_outcome_oneOf hm
  obtain ⟨s, hs, rfl⟩ := List.mem_map.mp hcheck
  obtain ⟨s', hs', upholds⟩ := h.exists_right hs
  exact Check.noFailure_oneOf (List.mem_map_of_mem hs') (upholds made)

/-- A union upholds another one with the same targets, in whatever order. -/
theorem upholds_union {targets targets' : List Reference} (same : ∀ t, t ∈ targets ↔ t ∈ targets')
    (h : ∀ t ∈ targets, Upholds follow follow' (.ref t) (.ref t)) :
    Upholds follow follow' (.union targets) (.union targets') := by
  intro v m path hm
  have empty : targets.isEmpty = targets'.isEmpty := by
    rw [Bool.eq_iff_iff, List.isEmpty_iff, List.isEmpty_iff, List.eq_nil_iff_forall_not_mem,
      List.eq_nil_iff_forall_not_mem]
    exact forall_congr' fun t => not_congr (same t)
  cases v with
  | object es =>
    rw [checkWith_union] at hm ⊢
    rw [← empty]
    by_cases none : targets.isEmpty = true
    · rw [if_pos none]
      exact NoFailure.ok _
    · rw [if_neg none] at hm ⊢
      obtain ⟨check, hcheck, made⟩ := Check.exists_of_outcome_oneOf hm
      obtain ⟨t, ht, rfl⟩ := List.mem_map.mp hcheck
      exact Check.noFailure_oneOf (List.mem_map_of_mem ((same t).mp ht)) (h t ht made)
  | _ =>
    rw [checkWith] at hm
    · cases hm
    all_goals simp

/-! ### Objects -/

/-- A field of an object may be absent. -/
def MayBeAbsent (s : Schema) : Prop :=
  s.default? = none → s.isRequired = false

variable (follow follow') in
/-- A field of an object refuses nothing that another one accepts, and may be absent if that may. -/
structure UpholdsField (s s' : Schema) : Prop where
  value : Upholds follow follow' s s'
  absent : s.MayBeAbsent → s'.MayBeAbsent

theorem UpholdsField.part (h : UpholdsField follow follow' s s') {es : Entries Value} {path : Path}
    {key : String} {p : Option (String × Value)} (hp : Schema.part follow es path key s = .ok p) :
    NoFailure (Schema.part follow' es path key s') := by
  cases hx : es.find? key with
  | some x =>
    rw [part_of_found hx] at hp ⊢
    obtain ⟨y, hy, _⟩ := Except.map_eq_ok_iff.mp hp
    exact (h.value hy).map _
  | none =>
    have may : s.MayBeAbsent := by
      intro plain
      rw [Schema.part, hx, plain] at hp
      dsimp only at hp
      split_ifs at hp with required
      exact Bool.eq_false_of_not_eq_true required
    rw [Schema.part, hx]
    cases default : s'.default? with
    | some d => exact NoFailure.ok _
    | none =>
      dsimp only
      rw [if_neg (by rw [h.absent may default]; exact Bool.false_ne_true)]
      exact NoFailure.ok _

/-- An object refuses nothing that another one accepts, if each of its fields upholds a field under
its key. -/
theorem upholds_fields {fields fields' : List (String × Schema)}
    (h : ∀ e ∈ fields', ∃ s, (e.1, s) ∈ fields ∧ UpholdsField follow follow' s e.2) :
    Upholds follow follow' (.fields fields) (.fields fields') := by
  intro v m path hm
  obtain ⟨es, parts, rfl, hparts, -⟩ := outcome_fields_eq_ok_iff.mp hm
  rw [outcome_fields]
  apply NoFailure.map
  rw [NoFailure.iff_faultsAre]
  apply FaultsAre.mapM
  intro e he
  rw [← NoFailure.iff_faultsAre]
  obtain ⟨s, hs, upholds⟩ := h e he
  obtain ⟨p, _, hp⟩ := hparts.exists_right hs
  exact upholds.part hp

theorem Upholds.requiredField (h : Upholds follow follow' s s') (plain : s.default? = none) :
    UpholdsField follow follow' (.required s) (.required s') where
  value := h.required
  absent may := by
    have optional : (Schema.required s).isRequired = false := may plain
    cases optional

/-- An object refuses nothing that another one accepts whose fields it upholds in their order. -/
theorem upholds_fields_of_forall₂ {fields fields' : List (String × Schema)}
    (h : List.Forall₂ (fun e e' => e.1 = e'.1 ∧ UpholdsField follow follow' e.2 e'.2)
      fields fields') : Upholds follow follow' (.fields fields) (.fields fields') := by
  apply upholds_fields
  intro e he
  obtain ⟨⟨key, s⟩, hs, same, upholds⟩ := h.exists_left he
  obtain rfl : key = e.1 := same
  exact ⟨s, hs, upholds⟩

theorem upholds_linkSchema : Upholds follow follow' Field.linkSchema Field.linkSchema := by
  apply upholds_fields_of_forall₂
  exact .cons ⟨rfl, (upholds_string (TextRules.alike_refl _)).requiredField rfl⟩ .nil

/-- Blobs are upheld where the same media types are taken and the sizes compare alike. -/
theorem upholds_blobSchema {p q : MediaPattern} (same : ∀ t, p.accepts t = q.accepts t)
    {size size' : Option Value} (sizes : Bounds.AlikeLimits size size') :
    Upholds follow follow' (Field.blobSchema p size) (Field.blobSchema q size') := by
  have rules : TextRules.Alike { pattern := some p } { pattern := some q } :=
    ⟨rfl, .some same, Bounds.alike_refl _, Bounds.alike_refl _⟩
  have bounds : Bounds.Alike ⟨some (.int 0), size⟩ ⟨some (.int 0), size'⟩ :=
    ⟨Bounds.alikeLimits_refl _, sizes⟩
  have text : Upholds follow follow' .text .text := upholds_string (TextRules.alike_refl _)
  have type : Upholds follow follow' (.literal (.str "blob")) (.literal (.str "blob")) :=
    upholds_literal fun _ => id
  apply upholds_anyOf
  refine .cons (upholds_fields_of_forall₂ ?_) (.cons (upholds_fields_of_forall₂ ?_) .nil)
  · exact .cons ⟨rfl, type.requiredField rfl⟩ (.cons ⟨rfl, upholds_linkSchema.requiredField rfl⟩
      (.cons ⟨rfl, (upholds_string rules).requiredField rfl⟩
        (.cons ⟨rfl, (upholds_integer bounds).requiredField rfl⟩ .nil)))
  · exact .cons ⟨rfl, text.requiredField rfl⟩
      (.cons ⟨rfl, (upholds_string rules).requiredField rfl⟩ .nil)

end Schema

end Lexicon
