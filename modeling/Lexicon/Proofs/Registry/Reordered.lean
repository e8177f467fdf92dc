import Lexicon.Proofs.Registry.Guarded
import Lexicon.Proofs.Schema.Reordered

/-!
# Verdicts and the order of entries

No definition compiles to a schema that looks at the order in which the entries of an object are
given: fields are checked in the order of their declaration, and other entries are kept as they are.
Main statement: the verdicts of a bundle on two values that differ only in the order of entries, at
any depth, are the same up to the order of entries.
-/

namespace Lexicon

variable {follow : Reference → Value → Path → Check Unit Value}

/-! ### Fields and definitions -/

namespace Field

variable {nsid : String} {strict : Bool} {f : Field} {c : CompiledField}

theorem ignoresOrder_addDefault {s : Schema} (hs : s.Scalar) :
    (f.addDefault s).IgnoresOrder follow := by
  unfold addDefault
  split
  · exact hs.ignoresOrder.withDefault _
  · exact hs.ignoresOrder

/-- A field ignores the order of entries if its references do. The induction is on the items. -/
theorem Compiles.ignoresOrder (h : Compiles nsid strict f c)
    (refs : ∀ target, (Schema.ref target).IgnoresOrder follow) : c.schema.IgnoresOrder follow := by
  induction h with
  | array _ ih => exact ih.array _
  | string _ hschema => exact ignoresOrder_addDefault (scalar_of_stringSchema hschema)
  | boolean _ hfixed => exact ignoresOrder_addDefault (scalar_getD hfixed .boolean)
  | integer _ hfixed => exact ignoresOrder_addDefault (scalar_getD hfixed (.integer _))
  | blob => exact Schema.ignoresOrder_blobSchema _ _
  | bytes => exact Schema.ignoresOrder_bytes _
  | cidLink => exact Schema.ignoresOrder_linkSchema
  | ref => exact refs _
  | union => exact Schema.ignoresOrder_union fun target _ => refs target
  | unknown => exact Schema.ignoresOrder_any
  | unrecognized => exact Schema.ignoresOrder_noop

end Field

namespace Definition

theorem CompiledProperty.ignoresOrder {name : String} {field : Field} {compiled : CompiledField}
    {required nullable : Bool} (h : compiled.schema.IgnoresOrder follow) :
    (of name field compiled required nullable).schema.IgnoresOrder follow := by
  cases required <;> cases nullable
  · exact h
  · exact h.nullable
  · exact h.required
  · exact h.nullable.required

theorem ignoresOrder_properties {properties : List CompiledProperty}
    (h : ∀ p ∈ properties, p.schema.IgnoresOrder follow) :
    (Schema.fields (properties.map fun p => (p.property.name, p.schema))).IgnoresOrder follow := by
  apply Schema.ignoresOrder_fields
  intro e he
  obtain ⟨p, hp, rfl⟩ := List.mem_map.mp he
  exact h p hp

/-- A definition ignores the order of entries if its references do. -/
theorem Component.Compiles.ignoresOrder {nsid key : String} {strict : Bool} {component : Component}
    {c : CompiledDefinition} (h : component.Compiles nsid key strict c)
    (made : component.Made nsid) (refs : ∀ target, (Schema.ref target).IgnoresOrder follow) :
    c.schema.IgnoresOrder follow := by
  cases h with
  | object h =>
    rw [h.schema_eq]
    refine ignoresOrder_properties fun p hp => ?_
    obtain ⟨_, _, compiled, hcompiled, rfl⟩ := h.properties.exists_left hp
    exact CompiledProperty.ignoresOrder
      ((Field.compiles_of_outcome hcompiled).ignoresOrder refs)
  | call =>
    cases made with
    | call d call partKeys =>
      refine ignoresOrder_properties fun p hp => ?_
      rcases mem_callFields hp with ⟨key, _, required, rfl⟩ | rfl
      · exact CompiledProperty.ignoresOrder (refs _)
      · exact CompiledProperty.ignoresOrder Schema.ignoresOrder_any
  | token => exact (Schema.Scalar.string _).ignoresOrder
  | field h => exact (Field.compiles_of_outcome h).ignoresOrder refs

end Definition

/-! ### Registries -/

/-- A definition of a faithful bundle ignores the order of entries if its references do. -/
theorem Bundle.Faithful.ignoresOrder {nsid key : String} {b : Bundle} (faithful : b.Faithful nsid)
    {c : CompiledDefinition} (hc : b.definitions.find? key = some c)
    (refs : ∀ target, (Schema.ref target).IgnoresOrder follow) : c.schema.IgnoresOrder follow := by
  obtain ⟨strict, component, hmem, compiles⟩ := faithful.component hc
  obtain ⟨e, _, he⟩ := List.mem_flatMap.mp hmem
  exact compiles.ignoresOrder (faithful.id_eq ▸ Definition.made_of_mem_components he) refs

namespace Registry

variable {env : Surroundings} {r : Registry}

/-- References of a sound registry ignore the order of entries. The induction is on the references
that are followed one after the other. -/
theorem Sound.ignoresOrder_ref (sound : r.Sound) (steps : Nat) (target : Reference) :
    (Schema.ref target).IgnoresOrder ((r.meaning env).follow steps) := by
  induction steps generalizing target with
  | zero => exact fun _ _ _ _ _ => .fault _
  | succ steps ih =>
    intro v w distinct reordered path
    simp only [Schema.checkWith, Lookup.follow, Check.outcome_bind, Check.outcome_lift]
    cases found : r.meaning env target with
    | error e => exact .fault e
    | ok c =>
      obtain ⟨b, hb, hc⟩ := meaning_eq_ok_iff.mp found
      exact (sound.found hb).ignoresOrder hc ih distinct reordered path

end Registry

/-- Verdicts that are the same up to the order of entries: the normalized values, the places and the
words of the failures, or the faults. -/
inductive Schema.Verdict.Agree : Except Fault Schema.Verdict → Except Fault Schema.Verdict → Prop
  | accepted {n m : Value} (h : n.Reordered m) : Agree (.ok (.ok n)) (.ok (.ok m))
  | refused {f g : Failure} (path : f.path = g.path)
      (message : f.problem.message = g.problem.message) :
      Agree (.ok (.error f)) (.ok (.error g))
  | fault (e : Fault) : Agree (.error e) (.error e)

theorem Registry.agree_verdictOf {x y : Except Fault Value} (h : Check.Agree Value.Reordered x y) :
    Schema.Verdict.Agree (verdictOf x) (verdictOf y) := by
  cases h with
  | ok h => exact .accepted h
  | failure path message => exact .refused path message
  | fault e =>
    cases e with
    | invalid f => exact .refused rfl rfl
    | _ => exact .fault _

/-- **Verdicts do not depend on the order of entries.** Two values that differ only in the order of
the entries of objects, at any depth, get verdicts that agree from every definition of a bundle,
whatever registry its references lead through: with the same fault, with failures in the same place
that say the same, or with normalized values that differ only in the order of entries. -/
theorem Bundle.verdict_reordered (env : Surroundings) {s : Store} (sound : s.registry.Sound)
    {nsid : String} {b : Bundle} (faithful : b.Faithful nsid) (key : String) {v w : Value}
    (distinct : v.DistinctKeys) (reordered : v.Reordered w) :
    Schema.Verdict.Agree ((b.verdict env key v).run s).1 ((b.verdict env key w).run s).1 := by
  rw [Bundle.verdict, Bundle.verdict, Check.run_bind, Check.run_bind, Action.run_lift]
  cases hc : b.definition key with
  | error e => exact .fault e
  | ok c =>
    dsimp only
    rw [Registry.fst_run_verdict, Registry.fst_run_verdict]
    apply Registry.agree_verdictOf
    rw [Registry.normalized, Registry.normalized, Registry.stepBound, Registry.stepBound,
      reordered.depth_eq]
    exact faithful.ignoresOrder (definition_eq_ok_iff.mp hc) (sound.ignoresOrder_ref _) distinct
      reordered []

/-- A place with a point, whose definition is referred to, and with a note that is not declared. -/
theorem Bundle.verdict_reordered_place :
    let place : Document := ⟨"com.example.place", [
      ("main", .object { properties := [
        ("point", { type := .str "ref", options := [("ref", .str "#point")] })] }),
      ("point", .object { properties := [("x", { type := .str "integer" })] })],
      .int 1, .null, .null, .null⟩
    let s := Registry.holding place
    let v : Value := .object [("note", .str "far"), ("point", .object [("y", .int 2), ("x", .int 1)])]
    let w : Value := .object [("point", .object [("x", .int 1), ("y", .int 2)]), ("note", .str "far")]
    v.DistinctKeys ∧ v.Reordered w ∧ ∃ b n m, s.registry.found {} place.id = .ok b ∧
      ((b.verdict {} "main" v).run s).1 = .ok (.ok n) ∧
      ((b.verdict {} "main" w).run s).1 = .ok (.ok m) ∧ n.Reordered m := by
  intro place s v w
  have distinct : v.DistinctKeys := by
    have decoded : v.Decoded := by simp [v, Entries.keys]
    exact decoded.distinct
  have point : (Value.object [("y", .int 2), ("x", .int 1)]).Reordered
      (.object [("x", .int 1), ("y", .int 2)]) :=
    .object (.swap _ _ _) (.cons (.intro _ (.refl _)) (.cons (.intro _ (.refl _)) .nil))
  have reordered : v.Reordered w :=
    .object (.swap _ _ _) (.cons (.intro _ point) (.cons (.intro _ (.refl _)) .nil))
  have evaluated : (s.registry.found {} place.id).toOption.any (fun b =>
      ((b.verdict {} "main" v).run s).1.toOption.any Except.isOk) = true := by
    decide +kernel
  simp only [Option.any_eq_true] at evaluated
  obtain ⟨b, hb, verdict, hverdict, accepted⟩ := evaluated
  replace hb := Except.eq_ok_of_toOption_eq_some hb
  replace hverdict := Except.eq_ok_of_toOption_eq_some hverdict
  obtain ⟨n, rfl⟩ := Except.exists_of_isOk accepted
  have sound := Registry.sound_holding place
  have agree := Bundle.verdict_reordered {} sound (sound.found hb) "main" distinct reordered
  obtain ⟨outcome, hm⟩ : ∃ outcome, ((b.verdict {} "main" w).run s).1 = outcome := ⟨_, rfl⟩
  rw [hverdict, hm] at agree
  cases agree with
  | accepted h => exact ⟨distinct, reordered, b, n, _, hb, hverdict, hm, h⟩

end Lexicon
