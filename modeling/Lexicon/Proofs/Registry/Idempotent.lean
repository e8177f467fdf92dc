import Lexicon.Proofs.Record.Reading
import Lexicon.Proofs.Schema.Accepts
import Lexicon.Proofs.Schema.Idempotent

/-!
# Normalized values

What a definition makes of a value it leaves as it is when it is checked again. A union may choose
another target for what its first choice has made, and a default that does not fit its own field is
refused when it is given; nothing else stands against it. Main statement: where no union is reached
and each default that is reached fits its field, the verdict on a normalized value is that value.
-/

namespace Lexicon

/-! ### Fields -/

namespace Field

variable {nsid : String} {strict : Bool} {f : Field} {c : CompiledField}

theorem scalar_of_constSchema? {s : Schema} (h : f.constSchema? = .ok (some s)) : s.Scalar := by
  unfold constSchema? at h
  split at h
  · rw [← Option.some.inj (Except.ok.inj h)]
    exact .literal _
  · obtain ⟨values, _, h⟩ := Except.bind_eq_ok_iff.mp h
    rw [← Option.some.inj (Except.ok.inj h)]
    exact .enum values
  · simp at h

theorem scalar_getD {fixed : Option Schema} (h : f.constSchema? = .ok fixed) {s : Schema}
    (hs : s.Scalar) : (fixed.getD s).Scalar := by
  cases fixed with
  | none => exact hs
  | some fixed => exact scalar_of_constSchema? h

theorem scalar_of_stringSchema {s : Schema} (h : f.stringSchema = .ok s) : s.Scalar := by
  obtain ⟨fixed, rules, hfixed, rfl⟩ := exists_rules_of_stringSchema h
  exact scalar_getD hfixed (.string rules)

theorem exists_scalar_of_addDefault {s : Schema} (hs : s.Scalar) {d : Value}
    (hd : (f.addDefault s).default? = some d) :
    ∃ inner : Schema, inner.Scalar ∧ f.addDefault s = .withDefault inner d := by
  unfold addDefault at hd ⊢
  split at hd
  · exact ⟨s, hs, by rw [Option.some.inj hd]⟩
  · cases hs <;> cases hd

/-- Only the schema of a single value has a default. -/
theorem Compiles.exists_scalar (h : Compiles nsid strict f c) {d : Value}
    (hd : c.schema.default? = some d) :
    ∃ inner : Schema, inner.Scalar ∧ c.schema = .withDefault inner d := by
  cases h with
  | string _ hschema => exact exists_scalar_of_addDefault (scalar_of_stringSchema hschema) hd
  | boolean _ hfixed => exact exists_scalar_of_addDefault (scalar_getD hfixed .boolean) hd
  | integer _ hfixed => exact exists_scalar_of_addDefault (scalar_getD hfixed (.integer _)) hd
  | _ => simp [Schema.default?, compileArray, blobSchema, linkSchema, Schema.fields] at hd

theorem idempotent_addDefault {follow : Reference → Value → Path → Check Unit Value} {s : Schema}
    (hs : s.Scalar) : (f.addDefault s).Idempotent follow := by
  unfold addDefault
  split
  · exact hs.idempotent.withDefault _
  · exact hs.idempotent

/-- A field without unions leaves what it has made of a value as it is, if its references do. -/
theorem Compiles.idempotent {follow : Reference → Value → Path → Check Unit Value}
    (h : Compiles nsid strict f c) (unions : ∀ targets, Link.union targets ∉ c.schema.links)
    (refs : ∀ target, Link.ref target ∈ c.schema.links →
      (Schema.ref target).Idempotent follow) : c.schema.Idempotent follow := by
  induction h with
  | array _ ih => exact (ih unions refs).array _
  | string _ hschema => exact idempotent_addDefault (scalar_of_stringSchema hschema)
  | boolean _ hfixed => exact idempotent_addDefault (scalar_getD hfixed .boolean)
  | integer _ hfixed => exact idempotent_addDefault (scalar_getD hfixed (.integer _))
  | blob => exact Schema.idempotent_blobSchema _ _
  | bytes => exact Schema.idempotent_bytes _
  | cidLink => exact Schema.idempotent_linkSchema
  | ref => exact refs _ (List.mem_singleton_self _)
  | union => exact absurd (List.mem_singleton_self _) (unions _)
  | unknown => exact Schema.idempotent_any
  | unrecognized => exact Schema.idempotent_noop

end Field

/-! ### Definitions -/

/-- The declared fields of an object. -/
def Schema.declared : Schema → List (String × Schema)
  | .object fields _ _ => fields
  | _ => []

/-- A compiled definition without unions, whose properties have names of their own and whose
defaults are accepted by the fields that they stand in for. -/
structure CompiledDefinition.Steady (c : CompiledDefinition) : Prop where
  unions : ∀ targets, Link.union targets ∉ c.schema.links
  names : (c.type.properties.map (·.name)).Nodup
  defaults : ∀ e ∈ c.schema.declared, ∀ d, e.2.default? = some d → e.2.Accepts d

namespace Definition

variable {follow : Reference → Value → Path → Check Unit Value}

/-- A property leaves the default as it is that it accepts, if its field is that of a single value
where it has a default. -/
theorem CompiledProperty.outcome_checkWith_default {name : String} {field : Field}
    {compiled : CompiledField} {required nullable : Bool}
    (scalar : ∀ d, compiled.schema.default? = some d →
      ∃ inner : Schema, inner.Scalar ∧ compiled.schema = .withDefault inner d) {d : Value}
    (hd : (of name field compiled required nullable).schema.default? = some d)
    (fits : (of name field compiled required nullable).schema.Accepts d) (path : Path) :
    ((of name field compiled required nullable).schema.checkWith follow d path).outcome =
      .ok d := by
  obtain ⟨n, accepted⟩ := Schema.accepts_iff.mp fits
  rw [checkWith_of] at accepted ⊢
  split_ifs at accepted ⊢ with null
  · rw [isNull_eq_true_iff.mp (Bool.and_eq_true_iff.mp null).2]
    rfl
  · rw [default?_of] at hd
    obtain ⟨inner, hinner, within⟩ := scalar d hd
    rw [within] at accepted ⊢
    simp only [Schema.checkWith] at accepted ⊢
    exact (hinner.accepted accepted).2 follow path

/-- A property leaves values and its default as they are, if its field leaves values as they are
and is that of a single value where it has a default. -/
theorem CompiledProperty.idempotentField {name : String} {field : Field} {compiled : CompiledField}
    {required nullable : Bool} (idempotent : compiled.schema.Idempotent follow)
    (scalar : ∀ d, compiled.schema.default? = some d →
      ∃ inner : Schema, inner.Scalar ∧ compiled.schema = .withDefault inner d)
    (fits : ∀ d, (of name field compiled required nullable).schema.default? = some d →
      (of name field compiled required nullable).schema.Accepts d) :
    (of name field compiled required nullable).schema.IdempotentField follow := by
  constructor
  · cases required <;> cases nullable
    · exact idempotent
    · exact idempotent.nullable
    · exact idempotent.required
    · exact idempotent.nullable.required
  · intro d hd path
    exact outcome_checkWith_default scalar hd (fits d hd) path

/-- A steady definition leaves what it has made of a value as it is, if its references do. -/
theorem Component.Compiles.idempotent {nsid key : String} {strict : Bool} {component : Component}
    {c : CompiledDefinition} (h : component.Compiles nsid key strict c)
    (made : component.Made nsid) (steady : c.Steady)
    (refs : ∀ target, Link.ref target ∈ c.schema.links →
      (Schema.ref target).Idempotent follow) : c.schema.Idempotent follow := by
  have fields {properties : List CompiledProperty}
      (schema : c.schema = .fields (fieldsOf properties))
      (type : c.type = .object (properties.map (·.property)))
      (each : ∀ p ∈ properties, p.schema.links ⊆ c.schema.links →
        (∀ d, p.schema.default? = some d → p.schema.Accepts d) →
        p.schema.IdempotentField follow) : c.schema.Idempotent follow := by
    have names := steady.names
    rw [type, DefinitionType.properties, List.map_map] at names
    have links {p : CompiledProperty} (hp : p ∈ properties) : p.schema.links ⊆ c.schema.links := by
      rw [schema]
      exact Schema.links_subset_of_mem (e := (p.property.name, p.schema)) (List.mem_map_of_mem hp)
    have defaults := steady.defaults
    rw [schema] at defaults ⊢
    refine Schema.idempotent_fields (keys_fieldsOf properties ▸ names) fun e he => ?_
    obtain ⟨p, hp, rfl⟩ := List.mem_map.mp he
    exact each p hp (links hp) (defaults _ he)
  cases h with
  | object h =>
    refine fields h.schema_eq h.type_eq fun p hp links fits => ?_
    obtain ⟨e, _, compiled, hcompiled, rfl⟩ := h.properties.exists_left hp
    have compiles := Field.compiles_of_outcome hcompiled
    rw [CompiledProperty.links_of] at links
    exact CompiledProperty.idempotentField
      (compiles.idempotent (fun targets hu => steady.unions targets (links hu))
        fun target ht => refs target (links ht))
      (fun _ => compiles.exists_scalar) fits
  | call =>
    cases made with
    | call d call partKeys =>
      refine fields rfl rfl fun p hp links fits => ?_
      rcases mem_callFields hp with ⟨key, _, required, rfl⟩ | rfl
      · rw [partField, CompiledProperty.links_of] at links
        exact CompiledProperty.idempotentField (refs _ (links (List.mem_singleton_self _)))
          (fun _ hd => by simp [Schema.default?] at hd) fits
      · exact CompiledProperty.idempotentField Schema.idempotent_any
          (fun _ hd => by simp [Schema.default?] at hd) fits
  | token => exact (Schema.Scalar.string _).idempotent
  | field hfield =>
    exact (Field.compiles_of_outcome hfield).idempotent steady.unions refs

end Definition

/-! ### Registries -/

namespace Registry

variable {env : Surroundings} {r : Registry}

/-- One compiled definition refers to another. -/
def RefersOn (env : Surroundings) (r : Registry) (c c' : CompiledDefinition) : Prop :=
  ∃ link ∈ c.schema.links, ∃ target ∈ link.targets, r.meaning env target = .ok c'

/-- A definition of a faithful bundle leaves what it has made of a value as it is, if its references
do. -/
theorem idempotent_of_faithful {nsid key : String} {b : Bundle} (faithful : b.Faithful nsid)
    {c : CompiledDefinition} (hc : b.definitions.find? key = some c) (steady : c.Steady)
    {follow : Reference → Value → Path → Check Unit Value}
    (refs : ∀ target, Link.ref target ∈ c.schema.links →
      (Schema.ref target).Idempotent follow) : c.schema.Idempotent follow := by
  obtain ⟨strict, component, hmem, compiles⟩ := faithful.component hc
  obtain ⟨e, _, he⟩ := List.mem_flatMap.mp hmem
  exact compiles.idempotent (faithful.id_eq ▸ Definition.made_of_mem_components he) steady refs

/-- A reference of a definition leaves what it has made of a value as it is, if all definitions that
are reached from there are steady. The induction is on the references that are followed one after
the other. -/
theorem idempotent_follow (sound : r.Sound) (n : Nat) {c : CompiledDefinition}
    (steady : ∀ c', Relation.ReflTransGen (r.RefersOn env) c c' → c'.Steady)
    {target : Reference} (link : Link.ref target ∈ c.schema.links) :
    (Schema.ref target).Idempotent ((r.meaning env).follow n) := by
  induction n generalizing c target with
  | zero =>
    intro v m path hm
    cases hm
  | succ n ih =>
    intro v m path hm
    obtain ⟨c', hc', hm⟩ := outcome_follow_eq_ok_iff.mp hm
    obtain ⟨b, hb, hdefinition⟩ := meaning_eq_ok_iff.mp hc'
    have next : r.RefersOn env c c' := ⟨_, link, target, List.mem_singleton_self _, hc'⟩
    have reached (c'' : CompiledDefinition) (h : Relation.ReflTransGen (r.RefersOn env) c' c'') :
        c''.Steady := steady c'' (h.head next)
    refine outcome_follow_eq_ok_iff.mpr ⟨c', hc', ?_⟩
    exact idempotent_of_faithful (sound.found hb) hdefinition (reached c' .refl)
      (fun _ => ih reached) hm

end Registry

/-- What a bundle makes of a value by one of its definitions it leaves as it is, at once and when
everything has been loaded that the first check asked for. This takes that the definitions that are
reached are without unions, have properties with names of their own, and have defaults that their
fields accept. -/
theorem Bundle.verdict_normalized {env : Surroundings} {s : Store} (sound : s.registry.Sound)
    {nsid key : String} {b : Bundle} (faithful : b.Faithful nsid) {c : CompiledDefinition}
    (hc : b.definitions.find? key = some c)
    (steady : ∀ c', Relation.ReflTransGen (s.registry.RefersOn env) c c' → c'.Steady)
    {v n : Value} (h : ((b.verdict env key v).run s).1 = .ok (.ok n)) :
    ((b.verdict env key n).run s).1 = .ok (.ok n) ∧
      ((b.verdict env key n).run ((b.verdict env key v).run s).2).1 = .ok (.ok n) := by
  have verdict {x : Value} (s : Store) :
      (b.verdict env key x).run s = (Registry.verdict env c.schema x).run s := by
    rw [Bundle.verdict, Check.run_bind, Bundle.definition_eq_ok_iff.mpr hc, Action.run_lift]
  have answers := Registry.found_of_verdict env c.schema v s
  simp only [verdict, Registry.fst_run_verdict, Registry.verdictOf_eq_accepted_iff] at h ⊢
  have same : s.registry.normalized env c.schema n [] = .ok n := by
    rw [Registry.normalized_eq env (Nat.le_max_left _ (s.registry.stepBound env n))] at h
    rw [Registry.normalized_eq env (Nat.le_max_right (s.registry.stepBound env v) _)]
    exact Registry.idempotent_of_faithful faithful hc (steady c .refl)
      (fun _ => Registry.idempotent_follow sound _ steady) h
  refine ⟨same, ?_⟩
  rw [Registry.normalized_congr env (congrArg Lookup.ofBundles answers), same]

/-- Notes that hold bytes, a count with a default, and further notes. -/
theorem Bundle.verdict_normalized_note :
    let further : Field := { type := .str "ref", options := [("ref", .str "#main")] }
    let note : Document := ⟨"com.example.note", [("main", .object { properties := [
      ("data", { type := .str "bytes" }),
      ("count", { type := .str "integer", options := [("default", .int 1)] }),
      ("parts", { type := .str "array", items := some further })] })],
      .int 1, .null, .null, .null⟩
    let s : Store := ⟨{ id := 0, sources := [.documents [note]], strict := some true }, []⟩
    let v : Value := .object [("more", .null), ("parts", .tuple [.object []]),
      ("data", .object [("$bytes", .str "AQID")])]
    ∃ b n, s.registry.found {} note.id = .ok b ∧ ((b.verdict {} "main" v).run s).1 = .ok (.ok n) ∧
      ((b.verdict {} "main" n).run s).1 = .ok (.ok n) := by
  intro further note s v
  have computed : (s.registry.meaning {} ⟨note.id, "main"⟩).toOption.map (fun c =>
      (c.schema.links, c.type.properties.map (·.name), c.schema.declared.all fun e =>
        e.2.default?.all fun d => decide (e.2.Accepts d))) =
      some ([.ref ⟨note.id, "main"⟩], ["data", "count", "parts"], true) := by decide +kernel
  obtain ⟨c, hc, computed⟩ := Option.map_eq_some_iff.mp computed
  obtain ⟨links, names, defaults⟩ : c.schema.links = [.ref ⟨note.id, "main"⟩] ∧
      c.type.properties.map (·.name) = ["data", "count", "parts"] ∧
      (c.schema.declared.all fun e => e.2.default?.all fun d => decide (e.2.Accepts d)) = true := by
    simpa using computed
  replace hc := Except.eq_ok_of_toOption_eq_some hc
  obtain ⟨b, hb, hdefinition⟩ := Registry.meaning_eq_ok_iff.mp hc
  have steady : c.Steady := by
    refine ⟨by simp [links], by simp [names], fun e he d hd => ?_⟩
    have accepted := List.all_eq_true.mp defaults e he
    rw [hd] at accepted
    exact of_decide_eq_true accepted
  have only : ∀ c', Relation.ReflTransGen (s.registry.RefersOn {}) c c' → c' = c := by
    intro c' reached
    induction reached with
    | refl => rfl
    | tail _ next ih =>
      obtain ⟨link, hlink, target, htarget, hc'⟩ := next
      rw [ih, links, List.mem_singleton] at hlink
      rw [hlink, Link.targets, List.mem_singleton] at htarget
      rw [htarget] at hc'
      exact Except.ok.inj (hc'.symm.trans hc)
  obtain ⟨n, hn⟩ : ∃ n,
      ((b.verdict {} "main" v).run s).1.toOption.bind Except.toOption = some n := by
    refine Option.isSome_iff_exists.mp ?_
    have accepted : (s.registry.found {} note.id).toOption.any (fun b =>
        (((b.verdict {} "main" v).run s).1.toOption.bind Except.toOption).isSome) = true := by
      decide +kernel
    rwa [hb] at accepted
  obtain ⟨verdict, hverdict, hn⟩ := Option.bind_eq_some_iff.mp hn
  obtain rfl := Except.eq_ok_of_toOption_eq_some hn
  replace hverdict := Except.eq_ok_of_toOption_eq_some hverdict
  have sound : s.registry.Sound := Registry.sound_of_empty rfl
  exact ⟨b, n, hb, hverdict, (Bundle.verdict_normalized sound (sound.found hb) hdefinition
    (fun c' reached => (only c' reached).symm ▸ steady) hverdict).1⟩

end Lexicon
