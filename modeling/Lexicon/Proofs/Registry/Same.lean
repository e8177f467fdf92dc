import Lexicon.Proofs.Document.Same
import Lexicon.Proofs.Registry.Guarded
import Lexicon.Proofs.Registry.Sound
import Lexicon.Proofs.Registry.Verdict
import Lexicon.Proofs.Registry.WriteOnce

/-!
# Equal documents mean the same

A registry answers for a document with the bundle of an equal one that it holds. Main statement: the
bundles of equal documents have the same keys, and under each key they accept the same values, if
the documents list the same values with their kinds. Numbers of different kinds are equal in a
document and differ in a checked value; a list of allowed values that holds one or the other decides
differently.
-/

namespace Lexicon

open Schema (Upholds)

theorem Bundle.mem_keys_iff {b : Bundle} {key : String} :
    key ∈ b.keys ↔ ∃ c, b.definition key = .ok c := by
  unfold Bundle.keys
  simp only [Bundle.definition_eq_ok_iff]
  rw [← Entries.has_eq_true_iff, Entries.has, Option.isSome_iff_exists]

/-- Two schemas that uphold each other both accept a value or both refuse it, if they give verdicts
on it. -/
theorem Registry.isOk_eq_of_upholds {env : Surroundings} {s : Store} {schema schema' : Schema}
    (upholds : ∀ follow, Upholds follow follow schema schema')
    (upholds' : ∀ follow, Upholds follow follow schema' schema) {v : Value}
    {verdict verdict' : Schema.Verdict}
    (given : ((Registry.verdict env schema v).run s).1 = .ok verdict)
    (given' : ((Registry.verdict env schema' v).run s).1 = .ok verdict') :
    verdict.isOk = verdict'.isOk := by
  rw [fst_run_verdict] at given given'
  cases verdict with
  | ok n =>
    cases verdict' with
    | ok n' => rfl
    | error failure =>
      rw [verdictOf_eq_accepted_iff] at given
      rw [verdictOf_eq_refused_iff] at given'
      exact absurd given' (upholds _ given failure)
  | error failure =>
    cases verdict' with
    | ok n' =>
      rw [verdictOf_eq_refused_iff] at given
      rw [verdictOf_eq_accepted_iff] at given'
      exact absurd given (upholds' _ given' failure)
    | error failure' => rfl

namespace Document

/-- Where each component of a document has one like it in another under its key, so has each
compiled definition one that upholds it. -/
theorem exists_upholds {a b : Document} (id : a.id = b.id)
    (alike : ∀ e ∈ a.components, ∃ c, (e.1, c) ∈ b.components ∧ e.2.Alike c)
    {bundle bundle' : Bundle} {strict strict' : Bool}
    (compiled : (a.compileAll strict).outcome = .ok bundle.definitions)
    (compiled' : (b.compileAll strict').outcome = .ok bundle'.definitions) {key : String}
    {c : CompiledDefinition} (hc : bundle.definition key = .ok c) :
    ∃ c', bundle'.definition key = .ok c' ∧
      ∀ follow : Reference → Value → Path → Check Unit Value,
        Upholds follow follow c.schema c'.schema := by
  rw [Bundle.definition_eq_ok_iff] at hc
  obtain ⟨made, -⟩ := compiles_of_outcome compiled
  obtain ⟨made', distinct'⟩ := compiles_of_outcome compiled'
  obtain ⟨⟨_, component⟩, hcomponent, rfl, compiles⟩ :=
    made.exists_left (Entries.mem_of_find?_eq_some hc)
  obtain ⟨component', hcomponent', alike⟩ := alike _ hcomponent
  obtain ⟨⟨_, c'⟩, hc', rfl, compiles'⟩ := made'.exists_right hcomponent'
  refine ⟨c', Bundle.definition_eq_ok_iff.mpr ((Entries.find?_eq_some_iff distinct').mpr hc'), ?_⟩
  intro follow
  rw [id] at compiles
  exact compiles.upholds compiles' alike

/-- **Equal documents mean the same.** The bundles of two equal documents that list the same values
with their kinds have the same keys, and under each key, in any registry, whatever value both give a
verdict on is accepted by both or refused by both. They give a verdict on every value where all
references lead to a definition, none of them back to one that has handed on the same value, and all
bounds are numbers. A registry that holds the first bundle answers with it for the other document.
-/
theorem verdict_of_same {v w : Value} (hv : v.Decoded) (hw : w.Decoded) {a b : Document}
    (ha : ofValue v = .ok a) (hb : ofValue w = .ok b) (same : a.same b = true)
    (kinds : a.keepsKinds b = true) {id id' : BundleId} {registry registry' : Nat}
    {strict strict' : Bool} {bundle bundle' : Bundle}
    (compiled : (a.compile id registry strict).outcome = .ok bundle)
    (compiled' : (b.compile id' registry' strict').outcome = .ok bundle') :
    (∀ key, key ∈ bundle.keys ↔ key ∈ bundle'.keys) ∧
      (∀ key c c', bundle.definition key = .ok c → bundle'.definition key = .ok c' →
        ∀ (env : Surroundings) (s : Store) (x : Value),
          (∀ verdict verdict' : Schema.Verdict,
            ((Registry.verdict env c.schema x).run s).1 = .ok verdict →
            ((Registry.verdict env c'.schema x).run s).1 = .ok verdict' →
            verdict.isOk = verdict'.isOk) ∧
          (s.registry.Settling env →
            s.registry.Resolves env c.schema → s.registry.Resolves env c'.schema →
            (∀ b ∈ c.schema.allBounds, b.Numeric) → (∀ b ∈ c'.schema.allBounds, b.Numeric) →
            ∃ verdict verdict', ((Registry.verdict env c.schema x).run s).1 = .ok verdict ∧
              ((Registry.verdict env c'.schema x).run s).1 = .ok verdict')) ∧
      ∀ (env : Surroundings) (s : Store), s.registry.bundles.find? b.id = some bundle →
        (Registry.register env b).run s = (.ok bundle, s) := by
  obtain ⟨right, left⟩ := exists_alike hv hw ha hb same kinds
  obtain ⟨⟨-, ⟨_, all⟩, -⟩, document, -⟩ := of_compile compiled
  obtain ⟨⟨-, ⟨_, all'⟩, -⟩, document', -⟩ := of_compile compiled'
  rw [document] at all
  rw [document'] at all'
  have id : a.id = b.id := by
    simp only [Document.same, Bool.and_eq_true, beq_iff_eq] at same
    exact same.1.1.1.1
  refine ⟨?_, ?_, ?_⟩
  · intro key
    rw [Bundle.mem_keys_iff, Bundle.mem_keys_iff]
    constructor
    · rintro ⟨c, hc⟩
      obtain ⟨c', hc', -⟩ := exists_upholds id right all all' hc
      exact ⟨c', hc'⟩
    · rintro ⟨c', hc'⟩
      obtain ⟨c, hc, -⟩ := exists_upholds id.symm left all' all hc'
      exact ⟨c, hc⟩
  · intro key c c' hc hc' env s x
    obtain ⟨_, found', upholds⟩ := exists_upholds id right all all' hc
    obtain rfl := Except.ok.inj (found'.symm.trans hc')
    obtain ⟨_, found, upholds'⟩ := exists_upholds id.symm left all' all hc'
    obtain rfl := Except.ok.inj (found.symm.trans hc)
    constructor
    · intro verdict verdict' given given'
      exact Registry.isOk_eq_of_upholds upholds upholds' given given'
    · intro settling resolves resolves' sized sized'
      obtain ⟨verdict, given⟩ := settling.exists_verdict resolves sized x
      obtain ⟨verdict', given'⟩ := settling.exists_verdict resolves' sized' x
      exact ⟨verdict, verdict', given, given'⟩
  · intro env s held
    apply Registry.run_register_of_same held
    rw [document]
    exact same

/-- Rows of rows of natural numbers with a unit: the bound is an integer or a double, and the
properties stand in one order or the other. -/
theorem verdict_of_same_grid :
    let rows (least : Value) : Value := .object [("type", .str "array"), ("items", .object [
      ("type", .str "array"), ("items", .object [("type", .str "integer"), ("minimum", least)])])]
    let unit : Value := .object [("type", .str "string"), ("enum", .list [.str "m", .str "s"])]
    let grid (properties : Entries Value) : Value := .object [("lexicon", .int 1),
      ("id", .str "com.example.grid"), ("defs", .object [
        ("main", .object [("type", .str "object"), ("properties", .object properties)])])]
    let v := grid [("rows", rows (.int 0)), ("unit", unit)]
    let w := grid [("unit", unit), ("rows", rows (.float ⟨0⟩))]
    let x : Value := .object [("rows", .list [.list [.int 5]])]
    ∃ a b bundle bundle' c c' verdict verdict', v.Decoded ∧ w.Decoded ∧ ofValue v = .ok a ∧
      ofValue w = .ok b ∧ a.same b = true ∧ a.keepsKinds b = true ∧
      (a.compile (.loose 0) 0 true).outcome = .ok bundle ∧
      (b.compile (.loose 1) 0 true).outcome = .ok bundle' ∧
      bundle.definition "main" = .ok c ∧ bundle'.definition "main" = .ok c' ∧
      (Registry.holding a).registry.Settling {} ∧
      ((Registry.verdict {} c.schema x).run (Registry.holding a)).1 = .ok verdict ∧
      ((Registry.verdict {} c'.schema x).run (Registry.holding a)).1 = .ok verdict' ∧
      verdict.isOk = verdict'.isOk ∧ bundle.keys = ["main"] ∧ "main" ∈ bundle'.keys := by
  intro rows unit grid v w x
  have hv : v.Decoded := by simp [v, grid, rows, unit, Entries.keys]
  have hw : w.Decoded := by simp [w, grid, rows, unit, Entries.keys]
  have evaluated : (ofValue v).toOption.any (fun a => (ofValue w).toOption.any fun b =>
      a.same b && a.keepsKinds b &&
        (a.compile (.loose 0) 0 true).outcome.toOption.any fun bundle =>
        (b.compile (.loose 1) 0 true).outcome.toOption.any fun bundle' =>
          bundle.keys == ["main"] && (bundle.definition "main").toOption.any fun c =>
          (bundle'.definition "main").toOption.any fun c' =>
            decide ((Registry.holding a).registry.sources = []) &&
            decide (∀ e ∈ (Registry.holding a).registry.bundles, ∀ d ∈ e.2.definitions,
              d.2.schema.links = [] ∧ d.2.schema.redirects = [] ∧
              ∀ b ∈ d.2.schema.allBounds, b.Numeric) &&
            decide (c.schema.links = [] ∧ ∀ b ∈ c.schema.allBounds, b.Numeric) &&
            decide (c'.schema.links = [] ∧ ∀ b ∈ c'.schema.allBounds, b.Numeric)) = true := by
    decide +kernel
  simp only [Option.any_eq_true, Bool.and_eq_true, beq_iff_eq, decide_eq_true_eq] at evaluated
  obtain ⟨a, ha, b, hb, ⟨same, kinds⟩, bundle, compiled, bundle', compiled', keys, c, hc, c', hc',
    ⟨⟨⟨empty, plain⟩, links, sized⟩, links', sized'⟩⟩ := evaluated
  replace ha := Except.eq_ok_of_toOption_eq_some ha
  replace hb := Except.eq_ok_of_toOption_eq_some hb
  replace compiled := Except.eq_ok_of_toOption_eq_some compiled
  replace compiled' := Except.eq_ok_of_toOption_eq_some compiled'
  replace hc := Except.eq_ok_of_toOption_eq_some hc
  replace hc' := Except.eq_ok_of_toOption_eq_some hc'
  obtain ⟨sameKeys, sameVerdict, -⟩ :=
    verdict_of_same hv hw ha hb same kinds compiled compiled'
  obtain ⟨agree, given⟩ := sameVerdict "main" c c' hc hc' {} (Registry.holding a) x
  have settling : (Registry.holding a).registry.Settling {} :=
    Registry.settling_of_unlinked (Registry.sound_holding a) empty plain
  obtain ⟨verdict, verdict', hverdict, hverdict'⟩ := given settling
    (Registry.resolves_of_unlinked links) (Registry.resolves_of_unlinked links') sized sized'
  refine ⟨a, b, bundle, bundle', c, c', verdict, verdict', hv, hw, ha, hb, same, kinds, compiled,
    compiled', hc, hc', settling, hverdict, hverdict', agree verdict verdict' hverdict hverdict',
    keys, (sameKeys "main").mp ?_⟩
  rw [keys]
  exact List.mem_cons_self

/-- A flag that can only be set, with its value listed as a truth value or as the number 1: the
documents are equal, and refer to nothing; the first takes a flag that is set, and the second
refuses it. -/
theorem not_verdict_of_same_flag :
    let flag (value : Value) : Value := .object [("lexicon", .int 1),
      ("id", .str "com.example.flag"), ("defs", .object [
        ("main", .object [("type", .str "object"), ("properties", .object [
          ("on", .object [("type", .str "boolean"), ("enum", .list [value])])])])])]
    let x : Value := .object [("on", .bool true)]
    ∃ a b bundle bundle' c c' n failure, ofValue (flag (.bool true)) = .ok a ∧
      ofValue (flag (.int 1)) = .ok b ∧ a.same b = true ∧
      (a.compile (.loose 0) 0 true).outcome = .ok bundle ∧
      (b.compile (.loose 1) 0 true).outcome = .ok bundle' ∧
      bundle.definition "main" = .ok c ∧ bundle'.definition "main" = .ok c' ∧
      c.schema.links = [] ∧ c'.schema.links = [] ∧
      ((Registry.verdict {} c.schema x).run (Registry.holding a)).1 = .ok (.ok n) ∧
      ((Registry.verdict {} c'.schema x).run (Registry.holding a)).1 = .ok (.error failure) := by
  intro flag x
  have evaluated : (ofValue (flag (.bool true))).toOption.any (fun a =>
      (ofValue (flag (.int 1))).toOption.any fun b => a.same b &&
        (a.compile (.loose 0) 0 true).outcome.toOption.any fun bundle =>
        (b.compile (.loose 1) 0 true).outcome.toOption.any fun bundle' =>
          (bundle.definition "main").toOption.any fun c =>
          (bundle'.definition "main").toOption.any fun c' =>
            decide (c.schema.links = []) && decide (c'.schema.links = []) &&
            (((Registry.verdict {} c.schema x).run (Registry.holding a)).1.toOption.any
              Except.isOk) &&
            (((Registry.verdict {} c'.schema x).run (Registry.holding a)).1.toOption.any
              fun verdict => !verdict.isOk)) = true := by
    decide +kernel
  simp only [Option.any_eq_true, Bool.and_eq_true, decide_eq_true_eq] at evaluated
  obtain ⟨a, ha, b, hb, same, bundle, compiled, bundle', compiled', c, hc, c', hc',
    ⟨⟨links, links'⟩, verdict, hverdict, accepted⟩, verdict', hverdict', refused⟩ := evaluated
  obtain ⟨n, rfl⟩ := Except.exists_of_isOk accepted
  cases verdict' with
  | ok => cases refused
  | error failure =>
    exact ⟨a, b, bundle, bundle', c, c', n, failure, Except.eq_ok_of_toOption_eq_some ha,
      Except.eq_ok_of_toOption_eq_some hb, same, Except.eq_ok_of_toOption_eq_some compiled,
      Except.eq_ok_of_toOption_eq_some compiled', Except.eq_ok_of_toOption_eq_some hc,
      Except.eq_ok_of_toOption_eq_some hc', links, links',
      Except.eq_ok_of_toOption_eq_some hverdict, Except.eq_ok_of_toOption_eq_some hverdict'⟩

end Document

end Lexicon
