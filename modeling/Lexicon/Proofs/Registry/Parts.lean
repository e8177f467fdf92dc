import Lexicon.Proofs.Compile.ClassNames
import Lexicon.Proofs.Record.Accepted
import Lexicon.Proofs.Registry.Addressable
import Lexicon.Proofs.Registry.Located

/-!
# Calls and their parts

A call compiles to one definition of its own name and one for each part that it declares. A value of
the call holds its parameters and its input, so the definition of the call refers to these two, by
names that are looked up in the registry only when a value is checked. Main statement: once a
document is registered, its bundle holds the declared parts and no others; a call judges a value as
its parts judge the entries under their keys; and its references to its own parts are never broken.
-/

namespace Lexicon

namespace Definition

/-! ### Declared parts -/

/-- The body of a call under the key of a part. -/
def callBody? : Definition → String → Option Body
  | .query _ output, "output" => output
  | .procedure _ input _, "input" => input
  | .procedure _ _ output, "output" => output
  | .subscription _ message, "message" => message
  | _, _ => none

/-- Whether a definition declares a part: parameters, or a body that has a schema. -/
def declares (d : Definition) (part : String) : Bool :=
  if part = "params" then (d.call?.bind (·.parameters)).isSome
  else (d.callBody? part).any (·.schema.isSome)

/-- Whether a value of a call must have an entry for a part: always for an input, and for parameters
if one of them is required. -/
def requires (d : Definition) (part : String) : Bool :=
  if part = "params" then (d.call?.bind (·.parameters)).any (!·.required.isEmpty) else true

/-- The declared parts that a value of a call has entries for. -/
def arguments (d : Definition) : List String :=
  ["params", "input"].filter d.declares

/-- A definition has the parts that it declares, in the order of their keys. -/
theorem callParts_eq (d : Definition) : d.callParts = Document.partKeys.filter d.declares := by
  rcases d with _ | _ | ⟨⟨_ | _, _, _⟩, _ | ⟨_, _ | _, _⟩⟩ |
    ⟨⟨_ | _, _, _⟩, _ | ⟨_, _ | _, _⟩, _ | ⟨_, _ | _, _⟩⟩ |
    ⟨⟨_ | _, _, _⟩, _ | ⟨_, _ | _, _⟩⟩ | _ | _ <;> rfl

theorem mem_callParts_of_arguments {d : Definition} {part : String} (h : part ∈ d.arguments) :
    part ∈ d.callParts := by
  obtain ⟨listed, declared⟩ := List.mem_filter.mp h
  rw [callParts_eq]
  refine List.mem_filter.mpr ⟨?_, declared⟩
  simp only [List.mem_cons, List.not_mem_nil, or_false] at listed
  rcases listed with rfl | rfl <;> simp [Document.partKeys]

/-- The fields of a call refer to its parts; any other one stands for an input without a schema. -/
theorem exists_callFields {d : Definition} {call : Call} (hcall : d.call? = some call)
    (nsid : String) : ∃ others, (∀ p ∈ others, p = rawInputField) ∧
      callFields nsid d call d.callParts =
        (d.arguments.map fun part => partField nsid part (d.requires part)) ++ others := by
  have contains {part : String} (h : part ∈ Document.partKeys) :
      d.callParts.contains part = d.declares part := by
    rw [callParts_eq, Bool.eq_iff_iff, List.contains_iff_mem, List.mem_filter]
    exact and_iff_right h
  have required : d.requires "params" = call.parameters.any (!·.required.isEmpty) := by
    rw [requires, if_pos rfl, hcall, Option.bind_some]
  rw [callFields, contains (by simp [Document.partKeys]), contains (by simp [Document.partKeys]),
    ← required]
  rcases params : d.declares "params" <;> rcases input : d.declares "input"
  all_goals simp only [arguments, List.filter_cons, List.filter_nil, params, input, if_true]
  · exact ⟨if d.takesInput then [rawInputField] else [], by simp, rfl⟩
  · exact ⟨[], List.forall_mem_nil _, rfl⟩
  · exact ⟨if d.takesInput then [rawInputField] else [], by simp, rfl⟩
  · exact ⟨[], List.forall_mem_nil _, rfl⟩

theorem components_of_call {d : Definition} {call : Call} (hcall : d.call? = some call)
    (nsid key : String) :
    d.components nsid key = (key, .call (callFields nsid d call d.callParts)) ::
      (d.parts call).map fun p => (p.1, Component.ofPart p.2.1) := by
  cases d with
  | query | procedure | subscription =>
    obtain rfl := Option.some.inj hcall
    rfl
  | _ => cases hcall

theorem exists_component_of_callParts {d : Definition} {part : String} (h : part ∈ d.callParts)
    (nsid key : String) : ∃ component, (part, component) ∈ d.components nsid key := by
  unfold callParts at h
  split at h
  · next call hcall =>
    obtain ⟨p, hp, rfl⟩ := List.mem_map.mp h
    rw [components_of_call hcall]
    exact ⟨_, List.mem_cons_of_mem _ (List.mem_map_of_mem hp)⟩
  · exact absurd h List.not_mem_nil

/-! ### Judging entries -/

section Judging

variable (d : Definition) (judge : String → Value → Except Fault Schema.Verdict)
  (es : Entries Value)

/-- What an object has for a part is accepted by it, or may be absent. -/
def Fits (part : String) : Prop :=
  match es.find? part with
  | some x => ∃ n, judge part x = .ok (.ok n)
  | none => d.requires part = false

/-- The failures of what an object has for a part. -/
inductive Refuses (part : String) : Failure → Prop
  | found {x : Value} {f : Failure} (entry : es.find? part = some x)
      (refused : judge part x = .ok (.error f)) : Refuses part (f.under [.key part])
  | missing (absent : es.find? part = none) (required : d.requires part = true) :
      Refuses part ⟨[.key part], .missing⟩

/-- What an object has for the parts before this one fits. -/
def Reaches (part : String) : Prop :=
  ∃ before after, d.arguments = before ++ part :: after ∧ ∀ p ∈ before, d.Fits judge es p

theorem Reaches.mem {d : Definition} {judge : String → Value → Except Fault Schema.Verdict}
    {es : Entries Value} {part : String} (h : d.Reaches judge es part) : part ∈ d.arguments := by
  obtain ⟨before, after, split, -⟩ := h
  simp [split]

end Judging

/-- The verdicts of a call are those of its parts: it accepts the objects whose entries fit the
parts; it refuses others as the first part does that is not fitted, under its key; and it has no
other faults than those of its parts. -/
structure Joins (d : Definition) (judge : String → Value → Except Fault Schema.Verdict)
    (key : String) : Prop where
  accepts_iff (v : Value) : (∃ n, judge key v = .ok (.ok n)) ↔
    ∃ es, v = .object es ∧ ∀ part ∈ d.arguments, d.Fits judge es part
  refuses_iff {v : Value} (distinct : v.DistinctKeys) (f : Failure) :
    judge key v = .ok (.error f) ↔
      (∀ es, v ≠ .object es) ∧ f = ⟨[], .wrongShape .object v.kind⟩ ∨
      ∃ es part, v = .object es ∧ d.Reaches judge es part ∧ d.Refuses judge es part f
  faults_iff (v : Value) (e : Fault) : judge key v = .error e ↔
    ∃ es part x, v = .object es ∧ d.Reaches judge es part ∧ Entries.find? es part = some x ∧
      judge part x = .error e

end Definition

/-! ### Compiled calls -/

/-- Every component of the document of a faithful bundle is compiled. -/
theorem Bundle.Faithful.exists_definition {nsid : String} {b : Bundle} (h : b.Faithful nsid)
    {e : String × Definition.Component} (he : e ∈ b.document.components) :
    ∃ strict c, b.definitions.find? e.1 = some c ∧ e.2.Compiles nsid e.1 strict c := by
  obtain ⟨strict, hcompiled⟩ := h.compiled
  obtain ⟨made, distinct⟩ := Document.compiles_of_outcome hcompiled
  obtain ⟨⟨key, c⟩, hmem, rfl, compiles⟩ := made.exists_right he
  exact ⟨strict, c, (Entries.find?_eq_some_iff distinct).mpr hmem, h.id_eq ▸ compiles⟩

/-- A bundle has the keys of the definitions of its document, each followed by those of the parts
that it declares. -/
theorem Bundle.Faithful.keys_eq {nsid : String} {b : Bundle} (h : b.Faithful nsid) :
    b.keys = b.document.definitions.flatMap fun e =>
      e.1 :: Document.partKeys.filter e.2.declares := by
  obtain ⟨strict, hcompiled⟩ := h.compiled
  rw [Bundle.keys, Document.keys_of_outcome hcompiled]
  exact List.flatMap_congr fun e _ => by rw [Definition.callParts_eq]

namespace Registry

variable {env : Surroundings} {r : Registry} {d : Definition}
  {judge : String → Value → Except Fault Schema.Verdict} {nsid : String} {es : Entries Value}

section Entry

variable (env r d nsid es)

/-- What a call puts under the key of a part. -/
def entry (part : String) : Except Fault (Option (String × Value)) :=
  Schema.part ((r.meaning env).follow (r.stepBound env (.object es))) es [] part
    (Definition.partField nsid part (d.requires part)).schema

end Entry

variable {part : String} {c : CompiledDefinition}

theorem entry_of_found (meaning : r.meaning env ⟨nsid, part⟩ = .ok c) {x : Value}
    (found : es.find? part = some x) :
    r.entry env d nsid es part =
      (fun y => some (part, y)) <$> r.normalized env c.schema x [.key part] := by
  have depth : x.depth ≤ (Value.object es).depth := (Value.depth_lt_of_found found).le
  rw [entry, Schema.part_of_found found, List.nil_append, Definition.partField,
    Definition.CompiledProperty.checkWith_of, Bool.false_and, if_neg Bool.false_ne_true,
    ← normalized_eq env (r.stepBound_mono env depth), normalized_ref, meaning, Except.ok_bind]

theorem entry_of_absent (absent : es.find? part = none) :
    r.entry env d nsid es part =
      if d.requires part then .error (.invalid ⟨[.key part], .missing⟩) else .ok none := by
  simp only [entry, Schema.part, absent, Definition.partField]
  cases d.requires part <;> rfl

section Judged

variable (meaning : r.meaning env ⟨nsid, part⟩ = .ok c)
  (judged : ∀ x, judge part x = verdictOf (r.normalized env c.schema x []))

include meaning judged

theorem entry_fits_iff :
    (∃ q, r.entry env d nsid es part = .ok q) ↔ d.Fits judge es part := by
  unfold Definition.Fits
  split
  · next x found =>
    rw [entry_of_found meaning found]
    simp only [judged, verdictOf_eq_accepted_iff, Except.map_eq_ok_iff]
    constructor
    · rintro ⟨_, n, accepted, -⟩
      exact ⟨n, ((alike_normalized env r c.schema x _ _).ok_iff n).mp accepted⟩
    · rintro ⟨n, accepted⟩
      exact ⟨_, n, ((alike_normalized env r c.schema x _ _).ok_iff n).mpr accepted, rfl⟩
  · next absent =>
    rw [entry_of_absent absent]
    cases d.requires part <;> simp

theorem entry_refuses_iff (distinct : (Value.object es).DistinctKeys) (f : Failure) :
    r.entry env d nsid es part = .error (.invalid f) ↔ d.Refuses judge es part f := by
  cases found : es.find? part with
  | some x =>
    have reached : Path.follow? [.key part] (.object es) = some x := by
      rw [Path.follow?_key, found]
      rfl
    rw [entry_of_found meaning found, normalized_reported env r c.schema (distinct.part reached)]
    constructor
    · intro failed
      cases outcome : r.normalized env c.schema x [] with
      | ok n => simp [outcome] at failed
      | error e =>
        cases e with
        | invalid g =>
          simp only [outcome, Check.reported_invalid, Except.error_map, Except.error.injEq,
            Fault.invalid.injEq] at failed
          rw [← failed]
          exact .found found (by rw [judged, outcome]; rfl)
        | _ => simp [outcome, Check.reported] at failed
    · intro refused
      cases refused with
      | found entry refused =>
        obtain rfl := Option.some.inj (found.symm.trans entry)
        rw [judged, verdictOf_eq_refused_iff] at refused
        rw [refused]
        rfl
      | missing absent => simp [found] at absent
  | none =>
    rw [entry_of_absent found]
    constructor
    · intro failed
      split_ifs at failed with required
      obtain rfl := Fault.invalid.inj (Except.error.inj failed)
      exact .missing found required
    · intro refused
      cases refused with
      | found entry => simp [found] at entry
      | missing _ required => rw [if_pos required]

theorem entry_faults_iff {e : Fault} (proper : ∀ f, e ≠ .invalid f) :
    r.entry env d nsid es part = .error e ↔
      ∃ x, es.find? part = some x ∧ judge part x = .error e := by
  cases found : es.find? part with
  | some x =>
    rw [entry_of_found meaning found, Except.map_eq_error_iff,
      (alike_normalized env r c.schema x _ []).error_iff proper]
    simp [judged, verdictOf_eq_error_iff, proper]
  | none =>
    rw [entry_of_absent found]
    cases d.requires part <;> simp [(proper _).symm]

end Judged

/-! ### Judging calls -/

/-- The schema of a call: a reference for each part that it has entries for, and nothing else that
could refuse a value. -/
def CallSchema (nsid : String) (d : Definition) (schema : Schema) : Prop :=
  ∃ others, (∀ p ∈ others, p = Definition.rawInputField) ∧
    schema = .fields (((d.arguments.map fun part =>
      Definition.partField nsid part (d.requires part)) ++ others).map fun p =>
        (p.property.name, p.schema))

theorem CallSchema.normalized_object {schema : Schema} (call : CallSchema nsid d schema)
    (env : Surroundings) (r : Registry) (es : Entries Value) :
    ∃ made : List (Option (String × Value)) → Value,
      r.normalized env schema (.object es) [] =
        made <$> d.arguments.mapM (r.entry env d nsid es) := by
  obtain ⟨others, raw, rfl⟩ := call
  let follow := (r.meaning env).follow (r.stepBound env (.object es))
  have unrefused : ∀ e ∈ others.map fun p => (p.property.name, p.schema),
      ∃ q, Schema.part follow es [] e.1 e.2 = .ok q ∧ True := by
    intro e he
    obtain ⟨p, hp, rfl⟩ := List.mem_map.mp he
    rw [raw p hp, Schema.part]
    cases es.find? Definition.rawInputField.property.name with
    | some x => exact ⟨_, rfl, trivial⟩
    | none => exact ⟨_, rfl, trivial⟩
  obtain ⟨qs, hqs, -⟩ := Except.exists_mapM unrefused
  have joined (made : List (Option (String × Value)) → Value)
      (x : Except Fault (List (Option (String × Value)))) :
      (made <$> do
        let ps ← x
        let qs ← Except.ok qs
        pure (ps ++ qs)) = (fun ps => made (ps ++ qs)) <$> x := by
    cases x <;> rfl
  rw [normalized, Schema.outcome_fields, List.map_append, List.mapM_append, hqs, joined,
    List.map_map, List.mapM_map]
  exact ⟨_, rfl⟩

theorem CallSchema.normalized_of_ne {schema : Schema} (call : CallSchema nsid d schema) {v : Value}
    (ne : ∀ es, v ≠ .object es) :
    r.normalized env schema v [] = .error (.invalid ⟨[], .wrongShape .object v.kind⟩) := by
  obtain ⟨others, -, rfl⟩ := call
  cases v with
  | object es => exact absurd rfl (ne es)
  | _ => rfl

/-- The references of a call to its parts lead to definitions that judge what it has for them. -/
def PartsJudge (env : Surroundings) (r : Registry) (nsid : String) (d : Definition)
    (judge : String → Value → Except Fault Schema.Verdict) : Prop :=
  ∀ part ∈ d.arguments, ∃ c, r.meaning env ⟨nsid, part⟩ = .ok c ∧
    ∀ x, judge part x = verdictOf (r.normalized env c.schema x [])

section Parts

variable (parts : PartsJudge env r nsid d judge)

include parts

theorem PartsJudge.fits_iff (listed : part ∈ d.arguments) :
    (∃ q, r.entry env d nsid es part = .ok q) ↔ d.Fits judge es part := by
  obtain ⟨c, meaning, judged⟩ := parts part listed
  exact entry_fits_iff meaning judged

/-- All entries of a call are made if they all fit. -/
theorem PartsJudge.passes_iff : (∃ qs, d.arguments.mapM (r.entry env d nsid es) = .ok qs) ↔
    ∀ part ∈ d.arguments, d.Fits judge es part := by
  constructor
  · rintro ⟨qs, hqs⟩ part listed
    obtain ⟨q, -, hq⟩ := (Except.mapM_eq_ok_iff.mp hqs).exists_right listed
    exact (parts.fits_iff listed).mp ⟨q, hq⟩
  · intro all
    obtain ⟨qs, hqs, -⟩ := Except.exists_mapM (Q := fun _ => True) fun part listed =>
      ((parts.fits_iff listed).mpr (all part listed)).imp fun _ hq => ⟨hq, trivial⟩
    exact ⟨qs, hqs⟩

/-- The entries of a call fail as the first one does that does not fit. -/
theorem PartsJudge.fails_iff {e : Fault} :
    d.arguments.mapM (r.entry env d nsid es) = .error e ↔
      ∃ part, d.Reaches judge es part ∧ r.entry env d nsid es part = .error e := by
  rw [Except.mapM_eq_error_iff]
  constructor
  · rintro ⟨before, part, after, split, passed, failed⟩
    refine ⟨part, ⟨before, after, split, fun p hp => ?_⟩, failed⟩
    exact (parts.fits_iff (by simp [split, hp])).mp (passed p hp)
  · rintro ⟨part, ⟨before, after, split, passed⟩, failed⟩
    refine ⟨before, part, after, split, fun p hp => ?_, failed⟩
    exact (parts.fits_iff (by simp [split, hp])).mpr (passed p hp)

/-- A call joins its parts, if its references to them lead to what judges their values. -/
theorem CallSchema.joins {schema : Schema} {key : String} (call : CallSchema nsid d schema)
    (own : ∀ v, judge key v = verdictOf (r.normalized env schema v [])) : d.Joins judge key := by
  have shape (v : Value) : (∀ es, v ≠ .object es) ∨ ∃ es, v = .object es := by
    by_cases h : ∃ es, v = .object es
    · exact .inr h
    · exact .inl fun es hes => h ⟨es, hes⟩
  constructor
  case accepts_iff =>
    intro v
    simp only [own, verdictOf_eq_accepted_iff]
    rcases shape v with other | ⟨es, rfl⟩
    · rw [call.normalized_of_ne other]
      simp [other]
    · obtain ⟨made, hmade⟩ := call.normalized_object env r es
      simp [hmade, Except.map_eq_ok_iff, ← parts.passes_iff]
  case refuses_iff =>
    intro v distinct f
    rw [own, verdictOf_eq_refused_iff]
    rcases shape v with other | ⟨es, rfl⟩
    · rw [call.normalized_of_ne other]
      simp [other, eq_comm]
    · obtain ⟨made, hmade⟩ := call.normalized_object env r es
      rw [hmade, Except.map_eq_error_iff, parts.fails_iff]
      constructor
      · rintro ⟨part, reached, failed⟩
        obtain ⟨c, meaning, judged⟩ := parts part reached.mem
        exact .inr ⟨es, part, rfl, reached, (entry_refuses_iff meaning judged distinct f).mp failed⟩
      · rintro (⟨other, -⟩ | ⟨_, part, ⟨⟩, reached, refused⟩)
        · exact absurd rfl (other es)
        · obtain ⟨c, meaning, judged⟩ := parts part reached.mem
          exact ⟨part, reached, (entry_refuses_iff meaning judged distinct f).mpr refused⟩
  case faults_iff =>
    intro v e
    rw [own, verdictOf_eq_error_iff]
    rcases shape v with other | ⟨es, rfl⟩
    · rw [call.normalized_of_ne other]
      constructor
      · rintro ⟨⟨⟩, proper⟩
        exact absurd rfl (proper _)
      · rintro ⟨es, _, _, rfl, -⟩
        exact absurd rfl (other es)
    · obtain ⟨made, hmade⟩ := call.normalized_object env r es
      rw [hmade, Except.map_eq_error_iff, parts.fails_iff]
      constructor
      · rintro ⟨⟨part, reached, failed⟩, proper⟩
        obtain ⟨c, meaning, judged⟩ := parts part reached.mem
        obtain ⟨x, found, faulty⟩ := (entry_faults_iff meaning judged proper).mp failed
        exact ⟨es, part, x, rfl, reached, found, faulty⟩
      · rintro ⟨_, part, x, ⟨⟩, reached, found, faulty⟩
        obtain ⟨c, meaning, judged⟩ := parts part reached.mem
        have proper : ∀ f, e ≠ .invalid f := by
          rw [judged] at faulty
          exact (verdictOf_eq_error_iff.mp faulty).2
        exact ⟨⟨part, reached, (entry_faults_iff meaning judged proper).mpr ⟨x, found, faulty⟩⟩,
          proper⟩

end Parts

/-- A call refers to the parts that it has entries for, and to nothing else. -/
theorem CallSchema.links_eq {schema : Schema} (call : CallSchema nsid d schema) :
    schema.links = d.arguments.map fun part => .ref ⟨nsid, part⟩ := by
  obtain ⟨others, raw, rfl⟩ := call
  have without : Schema.linksOfFields (others.map fun p => (p.property.name, p.schema)) = [] := by
    induction others with
    | nil => rfl
    | cons p rest ih =>
      rw [List.forall_mem_cons] at raw
      rw [raw.1]
      exact ih raw.2
  rw [List.map_append]
  change Schema.linksOfFields _ = _
  induction d.arguments with
  | nil => exact without
  | cons part rest ih =>
    rw [List.map_cons, List.map_cons, List.map_cons, List.cons_append, Schema.linksOfFields, ih]
    cases d.requires part <;> rfl

end Registry

/-- A bundle has a call under the name of its definition and under the keys of the parts. -/
theorem Bundle.Faithful.exists_call {nsid key : String} {b : Bundle} (h : b.Faithful nsid)
    {d : Definition} (defined : (key, d) ∈ b.document.definitions) (call : d.call? ≠ none) :
    ∃ main, b.definitions.find? key = some main ∧ Registry.CallSchema nsid d main.schema := by
  obtain ⟨call, hcall⟩ := Option.ne_none_iff_exists'.mp call
  obtain ⟨others, raw, fields⟩ := Definition.exists_callFields hcall nsid
  have component : (key, .call (Definition.callFields nsid d call d.callParts)) ∈
      b.document.components := by
    refine List.mem_flatMap.mpr ⟨_, defined, ?_⟩
    rw [Definition.components_of_call hcall, h.id_eq]
    exact List.mem_cons_self
  obtain ⟨strict, main, found, compiles⟩ := h.exists_definition component
  rw [fields] at compiles
  cases compiles with
  | call => exact ⟨_, found, others, raw, rfl⟩

theorem Bundle.Faithful.exists_part {nsid key part : String} {b : Bundle} (h : b.Faithful nsid)
    {d : Definition} (defined : (key, d) ∈ b.document.definitions) (listed : part ∈ d.callParts) :
    ∃ c, b.definitions.find? part = some c := by
  obtain ⟨component, hcomponent⟩ :=
    Definition.exists_component_of_callParts listed b.document.id key
  obtain ⟨_, c, found, -⟩ := h.exists_definition (List.mem_flatMap.mpr ⟨_, defined, hcomponent⟩)
  exact ⟨c, found⟩

namespace Registry

/-- **Calls are joined from their parts.** Once a document is registered, and whatever is done with
the registry later, its bundle holds each call, which is the main definition if the document was
read, followed by the parts that it declares. The call accepts an object whose entries fit its
parameters and its input, and refuses others as the first of these parts does that is not fitted,
under its key. It refers to these parts alone, and no reference to a declared part is ever broken:
all faults of the call are those of a part with its own entry. -/
theorem joins_of_register {s s' : Store} {env : Surroundings} {d : Document} {b : Bundle}
    (sound : s.registry.Sound) (registered : (register env d).run s = (.ok b, s'))
    (calls : List (Surroundings × Call)) (env' : Surroundings) {key : String}
    {call : Lexicon.Definition} (defined : (key, call) ∈ b.document.definitions)
    (isCall : call.call? ≠ none) :
    let later := after calls s'
    (∀ v, Document.ofValue v = .ok b.document → key = mainKey) ∧
    b.keys = b.document.definitions.flatMap
      (fun e => e.1 :: Document.partKeys.filter e.2.declares) ∧
    call.Joins (fun k v => ((b.verdict env' k v).run later).1) key ∧
    (∃ c, b.definition key = .ok c ∧
      c.schema.links = call.arguments.map fun part => .ref ⟨d.id, part⟩) ∧
    ∀ part ∈ Document.partKeys, call.declares part = true → ∃ c, b.definition part = .ok c ∧
      (definition env' ⟨d.id, part⟩).run later = (.ok c, later) := by
  intro later
  obtain ⟨held, sound'⟩ := held_of_register sound registered
  have faithful := sound' _ _ held
  have held' : later.registry.bundles.find? d.id = some b := grows_after calls s' _ _ held
  have found : later.registry.found env' d.id = .ok b := by
    unfold Registry.found
    rw [held']
  obtain ⟨main, hmain, schema⟩ := faithful.exists_call defined isCall
  have parts : PartsJudge env' later.registry d.id call
      fun k v => ((b.verdict env' k v).run later).1 := by
    intro part listed
    obtain ⟨c, hc⟩ := faithful.exists_part defined (Definition.mem_callParts_of_arguments listed)
    exact ⟨c, meaning_eq_ok_iff.mpr ⟨b, found, hc⟩, Bundle.fst_run_verdict hc⟩
  refine ⟨fun v read => Document.key_eq_of_call read defined isCall, faithful.keys_eq,
    schema.joins parts (Bundle.fst_run_verdict hmain),
    ⟨main, Bundle.definition_eq_ok_iff.mpr hmain, schema.links_eq⟩, fun part listed declared => ?_⟩
  obtain ⟨c, hc⟩ := faithful.exists_part defined
    (Definition.callParts_eq call ▸ List.mem_filter.mpr ⟨listed, declared⟩)
  refine ⟨c, Bundle.definition_eq_ok_iff.mpr hc, ?_⟩
  rw [run_definition_of_held held', Bundle.definition_eq_ok_iff.mpr hc]

/-- A procedure that sends a text to someone: it accepts whatever goes with a recipient and a text,
and refuses what has neither as the parameters are missing that the recipient is one of. -/
theorem joins_of_register_send :
    let parameters : Parameters :=
      { properties := [("to", { type := .str "string" })], required := [.str "to"] }
    let text : ObjectBody := { properties := [("text", { type := .str "string" })] }
    let call : Definition := .procedure ⟨some parameters, [], .null⟩
      (some ⟨.str "application/json", some (.object text), .null⟩) none
    let d : Document := ⟨"com.example.send", [("main", call)], .int 1, .null, .null, .null⟩
    let s : Store := ⟨{ id := 0, sources := [], strict := some true }, []⟩
    let sent : Value := .object [("raw_input", .null), ("params", .object [("to", .str "me")]),
      ("input", .object [("text", .str "hello")])]
    ∃ b s', (register {} d).run s = (.ok b, s') ∧ b.keys = ["main", "params", "input"] ∧
      (∃ n, ((b.verdict {} "main" sent).run s').1 = .ok (.ok n)) ∧
      ((b.verdict {} "main" (.object [])).run s').1 =
        .ok (.error ⟨[.key "params"], .missing⟩) := by
  intro parameters text call d s sent
  have evaluated : ((register {} d).run s).1.toOption.any (fun b =>
      let accepts (key : String) (v : Value) : Bool :=
        ((b.verdict {} key v).run ((register {} d).run s).2).1.toOption.any Except.isOk
      accepts "params" (.object [("to", .str "me")]) &&
        accepts "input" (.object [("text", .str "hello")])) = true := by
    decide +kernel
  rcases registered : (register {} d).run s with ⟨outcome, s'⟩
  simp only [registered, Option.any_eq_true, Bool.and_eq_true] at evaluated
  obtain ⟨b, hb, ⟨params, hparams, accepted⟩, ⟨input, hinput, accepted'⟩⟩ := evaluated
  obtain rfl := Except.eq_ok_of_toOption_eq_some hb
  obtain ⟨n, rfl⟩ := Except.exists_of_isOk accepted
  obtain ⟨n', rfl⟩ := Except.exists_of_isOk accepted'
  have document : b.document = d := document_of_register rfl registered
  have defined : ("main", call) ∈ b.document.definitions := by
    rw [document]
    exact List.mem_singleton_self _
  obtain ⟨-, keys, joins, -⟩ :=
    joins_of_register (sound_of_empty rfl) registered [] {} defined (Option.some_ne_none _)
  have arguments : call.arguments = ["params", "input"] := by decide +kernel
  refine ⟨b, s', rfl, ?_, (joins.accepts_iff sent).mpr ⟨_, rfl, ?_⟩, (joins.refuses_iff ?_ _).mpr
    (.inr ⟨[], "params", rfl, ⟨[], ["input"], arguments, List.forall_mem_nil _⟩, ?_⟩)⟩
  · rw [keys, document]
    decide +kernel
  · rw [arguments, List.forall_mem_cons, List.forall_mem_singleton]
    exact ⟨⟨n, Except.eq_ok_of_toOption_eq_some hparams⟩,
      ⟨n', Except.eq_ok_of_toOption_eq_some hinput⟩⟩
  · exact .of_entries List.nodup_nil (List.forall_mem_nil _)
  · exact .missing rfl rfl

end Registry

end Lexicon
