import Lexicon.Proofs.Registry.Compile
import Lexicon.Proofs.Registry.Idempotent
import Lexicon.Proofs.Schema.Faults
import Mathlib.Data.Fintype.Card
import Mathlib.Data.Set.Finite.List
import Mathlib.Order.WellFoundedSet

/-!
# Checks that end

A definition that is a reference or a union as a whole hands the value on to other definitions
without looking at its parts. Where no definition comes back to itself in this way, every check
ends: each reference is followed on a less deep value, or on the same value by a definition that
comes later on such a chain, and these are finitely many. Main statement: in such a registry that
holds all documents, the check of any value by any definition ends with a result, with a failure, or
with a reference that leads nowhere; only a bound that is no number makes it end otherwise.
-/

namespace Lexicon

/-- If a relation has no circles, then a property of which every instance leads to a further one
has no instances among finitely many things. -/
theorem not_of_leads {α : Type} {R : α → α → Prop} (acyclic : ∀ a, ¬ Relation.TransGen R a a)
    (xs : List α) (Q : α → Prop) (mem : ∀ a, Q a → a ∈ xs) (leads : ∀ a, Q a → ∃ b, R a b ∧ Q b)
    (a : α) : ¬ Q a := by
  intro ha
  let later (b a : α) : Prop := Relation.TransGen R a b
  have : IsTrans α later := ⟨fun _ _ _ hab hbc => hbc.trans hab⟩
  have : Std.Irrefl later := ⟨acyclic⟩
  have : IsStrictOrder α later := {}
  have wf : {a | a ∈ xs}.WellFoundedOn later := (List.finite_toSet xs).wellFoundedOn
  refine wf.induction (P := fun a => ¬ Q a) (mem a ha) (fun a _ ih ha => ?_) ha
  obtain ⟨b, hab, hb⟩ := leads a ha
  exact ih b (mem b hb) (.single hab) hb

namespace Lookup

variable {look : Lookup} {R : Reference → Reference → Prop} {P : Fault → Prop}
  {Q : Reference → Prop}

/-- Where references on the value itself never lead round in a circle, enough steps give a check no
faults but failures, faults of the lookups, and those of comparing with bounds that are no
numbers. What the references lead to may be restricted to some that lead only to each other. The
induction is on the depth of the value. -/
theorem faultsAre_follow {targets : List Reference} (known : ∀ t c, look t = .ok c → t ∈ targets)
    (acyclic : ∀ t, ¬ Relation.TransGen R t t)
    (leads : ∀ t c, look t = .ok c → ∀ t' ∈ c.schema.heads, R t t')
    (closed : ∀ t c, look t = .ok c → ∀ link ∈ c.schema.links, ∀ t' ∈ link.targets, Q t')
    (failures : ∀ e, Fault.IsFailure e → P e) (lookups : ∀ t, Q t → FaultsAre P (look t))
    (unsized : ∀ t c, look t = .ok c → ∀ b ∈ c.schema.allBounds, ¬ b.Numeric → P .wrongType)
    {n : Nat} {v : Value} (enough : v.depth * (targets.length + 1) ≤ n) {target : Reference}
    (within : Q target) (path : Path) : FaultsAre P (look.follow n target v path).outcome := by
  induction v using Value.depth_induction generalizing target path with
  | step v ih =>
    have below : Schema.FaultsBelow P Q (look.follow n) v.depth := by
      intro v' hv' target' within' path'
      exact ih v' hv' ((Nat.mul_le_mul_right _ (Nat.le_of_lt hv')).trans enough) within' path'
    have again (t : Reference) : (look.follow n t v path).outcome =
        look t >>= fun c => (c.schema.checkWith (look.follow n) v path).outcome := by
      rw [← outcome_follow_eq known (enough.trans (Nat.le_succ n)) enough, follow,
        Check.outcome_bind, Check.outcome_lift]
    -- a reference with another fault leads to one with another fault on the same value
    by_contra other
    refine not_of_leads acyclic targets
      (fun t => Q t ∧ ¬ FaultsAre P (look.follow n t v path).outcome) ?_ ?_ target ⟨within, other⟩
    · rintro t ⟨ht, other⟩
      cases found : look t with
      | ok c => exact known t c found
      | error e =>
        rw [again, found] at other
        have unfound := lookups t ht
        rw [found] at unfound
        exact absurd (FaultsAre.error_iff.mpr (FaultsAre.error_iff.mp unfound)) other
    · rintro t ⟨ht, other⟩
      by_contra last
      push Not at last
      refine other ?_
      rw [again]
      refine (lookups t ht).bind fun c found => ?_
      exact Schema.faultsAre_checkWith failures c.schema v path (unsized t c found)
        (closed t c found) (fun t' ht' => last t' (leads t c found t' ht')) below

end Lookup

/-! ### Definitions that hand a value on -/

/-- The definitions that a reference or a union as a whole hands a value on to. -/
def Schema.redirects : Schema → List Reference
  | .ref target => [target]
  | .union targets => targets
  | _ => []

theorem Schema.Scalar.heads_eq_nil {s : Schema} (h : s.Scalar) : s.heads = [] := by
  cases h <;> rfl

theorem Schema.Scalar.redirects_eq_nil {s : Schema} (h : s.Scalar) : s.redirects = [] := by
  cases h <;> rfl

theorem Field.heads_addDefault {f : Field} {s : Schema} (h : s.Scalar) :
    (f.addDefault s).heads = (f.addDefault s).redirects := by
  unfold addDefault
  split
  · exact h.heads_eq_nil
  · rw [h.heads_eq_nil, h.redirects_eq_nil]

/-- A field follows references on the value itself only if it is a reference or a union. -/
theorem Field.Compiles.heads_eq {nsid : String} {strict : Bool} {f : Field} {c : CompiledField}
    (h : Compiles nsid strict f c) : c.schema.heads = c.schema.redirects := by
  cases h with
  | string _ hschema => exact heads_addDefault (scalar_of_stringSchema hschema)
  | boolean _ hfixed => exact heads_addDefault (scalar_getD hfixed .boolean)
  | integer _ hfixed => exact heads_addDefault (scalar_getD hfixed (.integer _))
  | _ => rfl

/-- A definition follows references on the value itself only if it is a reference or a union. -/
theorem Definition.Component.Compiles.heads_eq {nsid key : String} {strict : Bool}
    {component : Component} {c : CompiledDefinition} (h : component.Compiles nsid key strict c) :
    c.schema.heads = c.schema.redirects := by
  cases h with
  | object h =>
    rw [h.schema_eq]
    rfl
  | field h => exact (Field.compiles_of_outcome h).heads_eq
  | _ => rfl

/-- No definition is found. -/
def Fault.IsUnresolved (e : Fault) : Prop :=
  ∃ nsid fragment available, e = .unresolved nsid fragment available

namespace Registry

variable {env : Surroundings} {r : Registry}

/-- The definition of a reference hands a value on to that of another one. -/
def HandsOn (env : Surroundings) (r : Registry) (t t' : Reference) : Prop :=
  ∃ c, r.meaning env t = .ok c ∧ t' ∈ c.schema.redirects

/-- No definition gets a value back that it has handed on. -/
def Guarded (env : Surroundings) (r : Registry) : Prop :=
  ∀ t, ¬ Relation.TransGen (r.HandsOn env) t t

/-- All documents are registered: the sources have no other. -/
def Complete (env : Surroundings) (r : Registry) : Prop :=
  ∀ nsid, r.bundles.find? nsid = none → ∀ source ∈ r.sources, source.load env nsid = .ok none

/-- Some definition has a bound that is no number. -/
def Unsized (env : Surroundings) (r : Registry) : Prop :=
  ∃ t c, r.meaning env t = .ok c ∧ ∃ b ∈ c.schema.allBounds, ¬ b.Numeric

/-- A registry that holds all documents leads somewhere, or finds no definition. -/
theorem Complete.faultsAre_meaning (complete : r.Complete env) (target : Reference) :
    FaultsAre Fault.IsUnresolved (r.meaning env target) := by
  have missing (nsid : String) {sources : List Source}
      (none : ∀ source ∈ sources, source.load env nsid = .ok none) :
      FaultsAre Fault.IsUnresolved (r.loaded env nsid sources) := by
    induction sources with
    | nil => exact FaultsAre.error_iff.mpr ⟨_, _, _, rfl⟩
    | cons source rest ih =>
      rw [List.forall_mem_cons] at none
      rw [loaded, none.1]
      exact ih none.2
  refine FaultsAre.bind ?_ fun b _ => ?_
  · unfold found
    split
    · exact .ok _
    · next absent => exact missing _ (complete _ absent)
  · unfold Bundle.definition
    split
    · exact .ok _
    · exact FaultsAre.error_iff.mpr ⟨_, _, _, rfl⟩

theorem Sound.heads_eq (sound : r.Sound) {t : Reference} {c : CompiledDefinition}
    (hc : r.meaning env t = .ok c) : c.schema.heads = c.schema.redirects := by
  obtain ⟨b, hb, hc⟩ := meaning_eq_ok_iff.mp hc
  obtain ⟨_, _, _, compiles⟩ := (sound.found hb).component hc
  exact compiles.heads_eq

/-- In a guarded registry a check has no faults but failures, faults of finding the definitions that
are referred to, and those of comparing with bounds that are no numbers. -/
theorem faultsAre_normalized {P : Fault → Prop} {Q : Reference → Prop} (sound : r.Sound)
    (guarded : r.Guarded env)
    (closed : ∀ t c, r.meaning env t = .ok c → ∀ link ∈ c.schema.links, ∀ t' ∈ link.targets, Q t')
    (failures : ∀ e, Fault.IsFailure e → P e) (lookups : ∀ t, Q t → FaultsAre P (r.meaning env t))
    (unsized : ∀ t c, r.meaning env t = .ok c →
      ∀ b ∈ c.schema.allBounds, ¬ b.Numeric → P .wrongType)
    {schema : Schema} (known : ∀ link ∈ schema.links, ∀ t ∈ link.targets, Q t)
    (bounds : ∀ b ∈ schema.allBounds, ¬ b.Numeric → P .wrongType) (v : Value) :
    FaultsAre P (r.normalized env schema v []) := by
  have leads (t : Reference) (c : CompiledDefinition) (hc : r.meaning env t = .ok c) :
      ∀ t' ∈ c.schema.heads, r.HandsOn env t t' :=
    fun t' ht' => ⟨c, hc, sound.heads_eq hc ▸ ht'⟩
  have follow {v' : Value} (hv' : v'.depth ≤ v.depth) (t : Reference) (ht : Q t) (path : Path) :
      FaultsAre P ((r.meaning env).follow (r.stepBound env v) t v' path).outcome :=
    Lookup.faultsAre_follow (fun _ _ h => r.mem_targets env h) guarded leads closed failures lookups
      unsized
      (Nat.mul_le_mul (Nat.le_succ_of_le hv') (Nat.succ_le_succ (r.length_targets_le env))) ht path
  exact Schema.faultsAre_checkWith failures schema v [] bounds known
    (fun t _ ht => follow (Nat.le_refl _) t ht [])
    fun v' hv' t ht path => follow (Nat.le_of_lt hv') t ht path

/-- In a registry that holds all documents and in which no definition gets a value back that it has
handed on through references and unions alone, the check of any value by any definition ends: with a
result, with a failure, or with a reference that leads nowhere. Only where a definition has a bound
that is no number may it end with the fault of comparing with it. -/
theorem faultsAre_verdict_of_guarded {s : Store} (sound : s.registry.Sound)
    (complete : s.registry.Complete env) (guarded : s.registry.Guarded env) {target : Reference}
    {c : CompiledDefinition} (hc : s.registry.meaning env target = .ok c) (v : Value) :
    FaultsAre (fun e => e.IsUnresolved ∨ e = .wrongType ∧ s.registry.Unsized env)
      ((Registry.verdict env c.schema v).run s).1 := by
  let P : Fault → Prop := fun e =>
    e.IsFailure ∨ e.IsUnresolved ∨ e = .wrongType ∧ s.registry.Unsized env
  have lookups (t : Reference) : FaultsAre P (s.registry.meaning env t) :=
    (complete.faultsAre_meaning t).imp fun _ h => .inr (.inl h)
  have unsized (t : Reference) (c : CompiledDefinition) (hc : s.registry.meaning env t = .ok c) :
      ∀ b ∈ c.schema.allBounds, ¬ b.Numeric → P .wrongType :=
    fun b hb numeric => .inr (.inr ⟨rfl, t, c, hc, b, hb, numeric⟩)
  have checked : FaultsAre P (s.registry.normalized env c.schema v []) :=
    faultsAre_normalized (Q := fun _ => True) sound guarded (fun _ _ _ _ _ _ _ => trivial)
      (fun _ => .inl) (fun t _ => lookups t) unsized (fun _ _ _ _ => trivial)
      (unsized target c hc) v
  rw [fst_run_verdict]
  intro e he
  unfold verdictOf at he
  split at he
  · simp at he
  · simp at he
  · next e' failed hnormalized =>
    obtain rfl := Except.error.inj he
    refine (checked _ hnormalized).resolve_left ?_
    rintro ⟨f, rfl⟩
    exact failed f rfl

/-- All references in a schema lead to a definition. -/
def Resolves (env : Surroundings) (r : Registry) (schema : Schema) : Prop :=
  ∀ link ∈ schema.links, ∀ t ∈ link.targets, ∃ c, r.meaning env t = .ok c

theorem resolves_of_unlinked {schema : Schema} (unlinked : schema.links = []) :
    r.Resolves env schema := by
  intro link hlink
  rw [unlinked] at hlink
  exact absurd hlink List.not_mem_nil

/-- A registry in which all references lead to a definition, none of them back to one that has
handed on the same value, and in which all bounds are numbers. -/
structure Settling (env : Surroundings) (r : Registry) : Prop where
  sound : r.Sound
  guarded : r.Guarded env
  resolves : ∀ t c, r.meaning env t = .ok c → r.Resolves env c.schema
  sized : ¬ r.Unsized env

/-- There the check of any value by a schema of this kind, whether or not it is in the registry,
gives a verdict. -/
theorem Settling.exists_verdict {s : Store} (h : s.registry.Settling env) {schema : Schema}
    (resolves : s.registry.Resolves env schema) (sized : ∀ b ∈ schema.allBounds, b.Numeric)
    (v : Value) : ∃ verdict, ((Registry.verdict env schema v).run s).1 = .ok verdict := by
  have lookups (t : Reference) (ht : ∃ c, s.registry.meaning env t = .ok c) :
      FaultsAre Fault.IsFailure (s.registry.meaning env t) := by
    obtain ⟨c, hc⟩ := ht
    rw [hc]
    exact .ok c
  rw [fst_run_verdict, ← settled_iff_exists_verdictOf]
  refine faultsAre_normalized h.sound h.guarded h.resolves (fun _ failed => failed) lookups ?_
    resolves (fun b hb unsized => absurd (sized b hb) unsized) v
  intro t c hc b hb unsized
  exact absurd ⟨t, c, hc, b, hb, unsized⟩ h.sized

/-- A registry without sources finds what its bundles define. -/
theorem mem_of_meaning (empty : r.sources = []) {t : Reference} {c : CompiledDefinition}
    (hc : r.meaning env t = .ok c) :
    ∃ b, (t.nsid, b) ∈ r.bundles ∧ (t.fragment, c) ∈ b.definitions := by
  obtain ⟨b, hb, hc⟩ := meaning_eq_ok_iff.mp hc
  unfold found at hb
  split at hb
  · next held =>
    obtain rfl := Except.ok.inj hb
    exact ⟨_, Entries.mem_of_find?_eq_some held, Entries.mem_of_find?_eq_some hc⟩
  · simp [empty, loaded] at hb

/-- A registry without sources is guarded if each definition hands values on only to definitions of
a lower rank. -/
theorem guarded_of_rank (empty : r.sources = []) (rank : Reference → Nat)
    (lower : ∀ e ∈ r.bundles, ∀ d ∈ e.2.definitions, ∀ t ∈ d.2.schema.redirects,
      rank t < rank ⟨e.1, d.1⟩) : r.Guarded env := by
  have step {t t' : Reference} (h : r.HandsOn env t t') : rank t' < rank t := by
    obtain ⟨c, hc, ht'⟩ := h
    obtain ⟨b, hb, hd⟩ := mem_of_meaning empty hc
    exact lower _ hb _ hd t' ht'
  have chain {t t' : Reference} (h : Relation.TransGen (r.HandsOn env) t t') :
      rank t' < rank t := by
    induction h with
    | single h => exact step h
    | tail _ h ih => exact (step h).trans ih
  exact fun t h => Nat.lt_irrefl _ (chain h)

/-- In a registry without sources there is nothing to resolve if no definition refers to another
one. -/
theorem settling_of_unlinked (sound : r.Sound) (empty : r.sources = [])
    (plain : ∀ e ∈ r.bundles, ∀ d ∈ e.2.definitions, d.2.schema.links = [] ∧
      d.2.schema.redirects = [] ∧ ∀ b ∈ d.2.schema.allBounds, b.Numeric) : r.Settling env where
  sound := sound
  guarded := by
    refine guarded_of_rank empty (fun _ => 0) fun e he d hd t ht => ?_
    rw [(plain e he d hd).2.1] at ht
    exact absurd ht List.not_mem_nil
  resolves t c hc := by
    obtain ⟨b, hb, hd⟩ := mem_of_meaning empty hc
    exact resolves_of_unlinked (plain _ hb _ hd).1
  sized := by
    rintro ⟨t, c, hc, bounds, hbounds, unsized⟩
    obtain ⟨b, hb, hd⟩ := mem_of_meaning empty hc
    exact unsized ((plain _ hb _ hd).2.2 bounds hbounds)

theorem complete_of_sources (empty : r.sources = []) : r.Complete env := by
  intro _ _ source hsource
  simp [empty] at hsource

/-- A store whose registry holds a document and has no sources. -/
def holding (d : Document) : Store :=
  after [({}, .register d)] ⟨{ id := 0, sources := [], strict := some true }, []⟩

theorem sound_holding (d : Document) : (holding d).registry.Sound :=
  Sound.after _ (sound_of_empty rfl)

/-- Posts that reply to posts by way of a definition that is only a reference. -/
theorem faultsAre_verdict_of_guarded_thread :
    let d : Document := ⟨"com.example.thread", [
      ("main", .object { properties := [("reply", { type := .str "ref", options := [
        ("ref", .str "#link")] })] }),
      ("link", .field { type := .str "ref", options := [("ref", .str "#main")] })],
      .int 1, .null, .null, .null⟩
    let r := (holding d).registry
    r.Sound ∧ r.Complete {} ∧ r.Guarded {} ∧
      ∃ c, r.meaning {} ⟨"com.example.thread", "link"⟩ = .ok c ∧
        FaultsAre (fun e => e.IsUnresolved ∨ e = .wrongType ∧ r.Unsized {})
          ((Registry.verdict {} c.schema (.object [("reply", .object [])])).run (holding d)).1 := by
  intro d r
  have empty : r.sources = [] := List.isEmpty_iff.mp (by decide +kernel)
  have guarded : r.Guarded {} :=
    guarded_of_rank empty (fun t => if t.fragment = "link" then 1 else 0) (by decide +kernel)
  have sound := sound_holding d
  have complete : r.Complete {} := complete_of_sources empty
  obtain ⟨c, hc⟩ : ∃ c, r.meaning {} ⟨"com.example.thread", "link"⟩ = .ok c :=
    Except.exists_of_isOk (by decide +kernel)
  exact ⟨sound, complete, guarded, c, hc, faultsAre_verdict_of_guarded sound complete guarded hc _⟩

/-- Items of items are not checked when a document is read: a bound of integers that is a text is
taken, and no definition refers to another, but checking an integer ends with a fault. -/
theorem verdict_wrongType_grid :
    let v := gridDocument (.object [("type", .str "integer"), ("minimum", .str "x")])
    ∃ d, Document.ofValue v = .ok d ∧
      (holding d).registry.Complete {} ∧ (holding d).registry.Guarded {} ∧
      ∃ c, (holding d).registry.meaning {} ⟨"com.example.grid", "main"⟩ = .ok c ∧
        ((Registry.verdict {} c.schema (.object [("rows", .list [.list [.int 5]])])).run
          (holding d)).1 = .error .wrongType := by
  intro v
  have evaluated : (Document.ofValue v).toOption.any (fun d =>
      (holding d).registry.sources.isEmpty ∧
      (∀ e ∈ (holding d).registry.bundles, ∀ c ∈ e.2.definitions, c.2.schema.redirects = []) ∧
      ((holding d).registry.meaning {} ⟨"com.example.grid", "main"⟩).toOption.any fun c =>
        ((Registry.verdict {} c.schema (.object [("rows", .list [.list [.int 5]])])).run
          (holding d)).1 = .error .wrongType) = true := by decide +kernel
  obtain ⟨d, hd, evaluated⟩ := Option.any_eq_true _ _ |>.mp evaluated
  obtain ⟨empty, redirects, evaluated⟩ := of_decide_eq_true evaluated
  obtain ⟨c, hc, refused⟩ := Option.any_eq_true _ _ |>.mp evaluated
  replace empty := List.isEmpty_iff.mp empty
  refine ⟨d, Except.eq_ok_of_toOption_eq_some hd, complete_of_sources empty,
    guarded_of_rank empty (fun _ => 0) fun e he c hc t ht => ?_, c,
    Except.eq_ok_of_toOption_eq_some hc, of_decide_eq_true refused⟩
  simp [redirects e he c hc] at ht

end Registry

end Lexicon
