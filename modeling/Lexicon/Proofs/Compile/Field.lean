import Lexicon.Compile.Field
import Lexicon.Proofs.Outcome
import Mathlib.Tactic.SplitIfs

/-!
# What fields compile to

A field that compiles gives the schema and the type that its own type asks for, case by case.
Main statement: only a text, a truth value or an integer has a default, and no field is by itself
required.
-/

namespace Lexicon

namespace Field

/-- The schema and the type of a field by the type that it names. -/
inductive Compiles (nsid : String) (strict : Bool) : Field → CompiledField → Prop
  | array {options : Entries Value} {items : Field} {description : Value} {item : CompiledField}
      (h : Compiles nsid strict items item) :
      Compiles nsid strict ⟨.str "array", options, some items, description⟩
        (compileArray options item)
  | string {f : Field} {schema : Schema} {known : List Value} (type : f.type = .str "string")
      (hschema : f.stringSchema = .ok schema) (hknown : f.elements "knownValues" = .ok known) :
      Compiles nsid strict f ⟨f.addDefault schema, .string (f.option "format") known⟩
  | boolean {f : Field} {fixed : Option Schema} (type : f.type = .str "boolean")
      (hfixed : f.constSchema? = .ok fixed) :
      Compiles nsid strict f ⟨f.addDefault (fixed.getD .boolean), .boolean⟩
  | integer {f : Field} {fixed : Option Schema} (type : f.type = .str "integer")
      (hfixed : f.constSchema? = .ok fixed) :
      Compiles nsid strict f
        ⟨f.addDefault (fixed.getD (.integer (f.bounds "minimum" "maximum"))), .integer⟩
  | blob {f : Field} {pattern : MediaPattern} {accepted : List Value}
      (type : f.type = .str "blob") :
      Compiles nsid strict f
        ⟨blobSchema pattern (f.option? "maxSize"), .blob accepted (f.option "maxSize")⟩
  | bytes {f : Field} (type : f.type = .str "bytes") :
      Compiles nsid strict f ⟨.bytes (f.bounds "minLength" "maxLength"), .bytes⟩
  | cidLink {f : Field} (type : f.type = .str "cid-link") :
      Compiles nsid strict f ⟨linkSchema, .cidLink⟩
  | ref {f : Field} {target : Reference} (type : f.type = .str "ref")
      (htarget : readReference nsid (f.option "ref") = .ok target) :
      Compiles nsid strict f ⟨.ref target, .ref target⟩
  | union {f : Field} {targets : List Reference} (type : f.type = .str "union") :
      Compiles nsid strict f ⟨.union targets, .union targets⟩
  | unknown {f : Field} (type : f.type = .str "unknown") : Compiles nsid strict f ⟨.any, .unknown⟩
  | unrecognized {f : Field}
      (type : ∀ name, f.type = .str name → f.compileScalar? nsid name = none) :
      Compiles nsid strict f ⟨.noop, .any⟩

private theorem compiles_of_scalar {nsid : String} {strict : Bool} {f : Field} {type : String}
    {result : Except Fault CompiledField} {c : CompiledField} (htype : f.type = .str type)
    (h : f.compileScalar? nsid type = some result) (hc : result = .ok c) :
    Compiles nsid strict f c := by
  subst hc
  unfold compileScalar? at h
  split at h
  · obtain ⟨schema, hschema, hc⟩ := Except.bind_eq_ok_iff.mp (Option.some.inj h)
    obtain ⟨known, hknown, hc⟩ := Except.bind_eq_ok_iff.mp hc
    obtain rfl := Except.ok.inj hc
    exact .string htype hschema hknown
  · obtain ⟨fixed, hfixed, hc⟩ := Except.bind_eq_ok_iff.mp (Option.some.inj h)
    obtain rfl := Except.ok.inj hc
    exact .boolean htype hfixed
  · obtain ⟨fixed, hfixed, hc⟩ := Except.bind_eq_ok_iff.mp (Option.some.inj h)
    obtain rfl := Except.ok.inj hc
    exact .integer htype hfixed
  · obtain ⟨pattern, _, hc⟩ := Except.bind_eq_ok_iff.mp (Option.some.inj h)
    dsimp only at hc
    split at hc
    all_goals
      obtain ⟨accepted, _, hc⟩ := Except.bind_eq_ok_iff.mp hc
      obtain rfl := Except.ok.inj hc
      exact .blob htype
  · obtain rfl := Except.ok.inj (Option.some.inj h)
    exact .bytes htype
  · obtain rfl := Except.ok.inj (Option.some.inj h)
    exact .cidLink htype
  · obtain ⟨target, htarget, hc⟩ := Except.bind_eq_ok_iff.mp (Option.some.inj h)
    obtain rfl := Except.ok.inj hc
    exact .ref htype htarget
  · obtain ⟨values, _, hc⟩ := Except.bind_eq_ok_iff.mp (Option.some.inj h)
    obtain ⟨targets, _, hc⟩ := Except.bind_eq_ok_iff.mp hc
    obtain rfl := Except.ok.inj hc
    exact .union htype
  · obtain rfl := Except.ok.inj (Option.some.inj h)
    exact .unknown htype
  · simp at h

theorem compiles_of_unrecognized {nsid : String} {strict : Bool} {f : Field} {type : Value}
    {c : CompiledField} (htype : ∀ name, f.type = .str name → f.compileScalar? nsid name = none)
    (h : (compileUnrecognized type nsid strict).outcome = .ok c) : Compiles nsid strict f c := by
  unfold compileUnrecognized at h
  split at h
  · simp at h
  · obtain ⟨_, _, h⟩ := Traced.outcome_bind_eq_ok_iff.mp h
    obtain rfl := Except.ok.inj h
    exact .unrecognized htype

theorem compiles_of_outcome {nsid : String} {strict : Bool} {f : Field} {c : CompiledField}
    (h : (f.compile nsid strict).outcome = .ok c) : Compiles nsid strict f c := by
  fun_induction compile nsid strict f generalizing c with
  | case1 => simp at h
  | case2 options items description ih =>
    obtain ⟨item, hitem, h⟩ := Traced.outcome_bind_eq_ok_iff.mp h
    obtain rfl := Except.ok.inj h
    exact .array (ih hitem)
  | case3 type _ _ _ _ _ _ hscalar => exact compiles_of_scalar rfl hscalar h
  | case4 type _ _ _ _ _ hscalar =>
    exact compiles_of_unrecognized (fun name hname => by rw [← Value.str.inj hname, hscalar]) h
  | case5 type _ _ _ _ _ hother =>
    exact compiles_of_unrecognized (fun name hname => absurd hname (hother name)) h
  | case6 => simp at h

/-! ### Options -/

theorem present?_eq_some {v w : Value} (h : v.present? = some w) : v = w := by
  cases v <;> simp [Value.present?] at h <;> exact h

theorem find?_of_option? {f : Field} {key : String} {v : Value} (h : f.option? key = some v) :
    f.options.find? key = some v := by
  have present := present?_eq_some h
  simp only [Field.option, Entries.getValue] at present
  cases hfound : f.options.find? key with
  | none =>
    simp [option?, Field.option, Entries.getValue, hfound, Value.ofOption, Value.present?] at h
  | some w =>
    rw [hfound] at present
    exact congrArg some present

/-- An option that is given and not null counts. -/
theorem option?_of_find? {f : Field} {key : String} {v : Value}
    (h : f.options.find? key = some v) (proper : v ≠ .null) : f.option? key = some v := by
  cases v <;> simp_all [option?, Field.option, Entries.getValue, Value.ofOption, Value.present?]

theorem option?_of_absent {f : Field} {key : String} (h : f.options.find? key = none) :
    f.option? key = none := by
  simp [option?, Field.option, Entries.getValue, h, Value.ofOption, Value.present?]

/-- A list of allowed values counts where no value is fixed, and then it must be one that can be
walked through. -/
theorem exists_constSchema_iff {f : Field} : (∃ fixed, f.constSchema? = .ok fixed) ↔
    (f.options.find? "const" = none → ∀ y, f.options.find? "enum" = some y →
      ∃ xs, y.elements = .ok xs) := by
  unfold constSchema?
  split
  · next given => simp [given]
  · next y absent given =>
    simp only [absent, given, Except.bind_eq_ok_iff, Option.some.injEq, forall_eq', true_implies]
    exact ⟨fun ⟨_, xs, hxs, _⟩ => ⟨xs, hxs⟩, fun ⟨xs, hxs⟩ => ⟨_, xs, hxs, rfl⟩⟩
  · next absent => simp [absent]

/-- A text field has the schema of its fixed value or of its allowed values, if it has some, and
else one of texts. -/
theorem exists_rules_of_stringSchema {f : Field} {s : Schema} (h : f.stringSchema = .ok s) :
    ∃ fixed rules, f.constSchema? = .ok fixed ∧ s = fixed.getD (.string rules) := by
  obtain ⟨fixed, hfixed, h⟩ := Except.bind_eq_ok_iff.mp h
  cases fixed with
  | some fixed => exact ⟨some fixed, {}, hfixed, (Except.ok.inj h).symm⟩
  | none =>
    obtain ⟨rules, -, h⟩ := Except.bind_eq_ok_iff.mp h
    exact ⟨none, rules, hfixed, (Except.ok.inj h).symm⟩

/-! ### Defaults -/

/-- The names of the types whose fields may have a default. -/
def defaultTypes : List String :=
  ["boolean", "integer", "string"]

/-- The value that stands in for an absent one. -/
def default? (f : Field) : Option Value :=
  match f.type with
  | .str type => if type ∈ defaultTypes then f.option? "default" else none
  | _ => none

/-- A schema without marks: it has no default and need not be present. -/
def IsPlain (s : Schema) : Prop :=
  s.default? = none ∧ s.isRequired = false

theorem isPlain_of_constSchema? {f : Field} {s : Schema} (h : f.constSchema? = .ok (some s)) :
    IsPlain s := by
  unfold constSchema? at h
  split at h
  · obtain rfl := Option.some.inj (Except.ok.inj h)
    exact ⟨rfl, rfl⟩
  · obtain ⟨values, _, h⟩ := Except.bind_eq_ok_iff.mp h
    obtain rfl := Option.some.inj (Except.ok.inj h)
    exact ⟨rfl, rfl⟩
  · simp at h

theorem isPlain_getD {f : Field} {fixed : Option Schema} (h : f.constSchema? = .ok fixed)
    {s : Schema} (hs : IsPlain s) : IsPlain (fixed.getD s) := by
  cases fixed with
  | none => exact hs
  | some fixed => exact isPlain_of_constSchema? h

theorem isPlain_of_stringSchema {f : Field} {s : Schema} (h : f.stringSchema = .ok s) :
    IsPlain s := by
  obtain ⟨fixed, rules, hfixed, rfl⟩ := exists_rules_of_stringSchema h
  exact isPlain_getD hfixed ⟨rfl, rfl⟩

theorem addDefault_marks {f : Field} {s : Schema} (h : IsPlain s) :
    (f.addDefault s).default? = f.option? "default" ∧ (f.addDefault s).isRequired = false := by
  unfold addDefault
  cases f.option? "default" with
  | none => exact h
  | some value => exact ⟨rfl, h.2⟩

/-- The default of a compiled field is that of the field, and a field is not required by itself. -/
theorem Compiles.marks {nsid : String} {strict : Bool} {f : Field} {c : CompiledField}
    (h : Compiles nsid strict f c) :
    c.schema.default? = f.default? ∧ c.schema.isRequired = false := by
  have named {type : String} (htype : f.type = .str type) :
      f.default? = if type ∈ defaultTypes then f.option? "default" else none := by
    simp only [default?, htype]
  cases h with
  | array => exact ⟨rfl, rfl⟩
  | string type hschema =>
    rw [named type]
    exact addDefault_marks (isPlain_of_stringSchema hschema)
  | boolean type hfixed =>
    rw [named type]
    exact addDefault_marks (isPlain_getD hfixed ⟨rfl, rfl⟩)
  | integer type hfixed =>
    rw [named type]
    exact addDefault_marks (isPlain_getD hfixed ⟨rfl, rfl⟩)
  | unrecognized type =>
    refine ⟨Eq.symm ?_, rfl⟩
    unfold default?
    split
    · next name hname =>
      have hscalar := type name hname
      split_ifs with hmem
      · simp only [defaultTypes, List.mem_cons, List.not_mem_nil, or_false] at hmem
        rcases hmem with rfl | rfl | rfl <;> simp [compileScalar?] at hscalar
      · rfl
    · rfl
  | blob type | bytes type | cidLink type | ref type | union type | unknown type =>
    rw [named type]
    exact ⟨rfl, rfl⟩

end Field

end Lexicon
