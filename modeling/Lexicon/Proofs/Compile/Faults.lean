import Lexicon.Proofs.Compile.Object
import Lexicon.Proofs.Document.WellFormed

/-!
# Faults of compiling

Each part of the compiler, applied to well-formed fields, ends with what it makes or with a compile
error. What remains is where the slots of a record type are made: a slot needs an attribute that is
an identifier in normal form, and a default that could not be changed in place. Main statement: a
well-formed document whose properties have such slots compiles, or ends with a compile error.
-/

namespace Lexicon

theorem Schema.Grants.eq_str_of_enum {texts : List String} {n : Value}
    (h : (Schema.enum (texts.map .str)).Grants n) : ∃ t ∈ texts, n = .str t := by
  obtain ⟨v, accepted, -, arranged⟩ := h
  obtain ⟨x, hx, same⟩ := accepted.exists_mem_of_enum
  obtain ⟨t, ht, rfl⟩ := List.mem_map.mp hx
  obtain rfl := Definition.identical_str_eq_true_iff.mp same
  exact ⟨t, ht, arranged.eq_str⟩

/-- Whether a text is among the parts of a value that can be walked through. -/
theorem Value.exists_isElement (t : String) {v : Value} {xs : List Value}
    (hv : v.elements = .ok xs) : ∃ found, (Value.str t).isElement v = .ok found := by
  cases v with
  | str | bytes | list | tuple | object => exact ⟨_, rfl⟩
  | _ => simp [Value.elements] at hv

/-! ### Options of fields -/

namespace Field

variable {f : Field}

namespace WellFormed

/-- What the language declares for the type of a field is granted where the field says it. -/
theorem granted (h : f.WellFormed) {key : String} {s : Schema}
    (hs : (key, s) ∈ Language.options f.type) {y : Value} (hy : f.options.find? key = some y) :
    s.Grants y := by
  obtain ⟨-, declared, -, -, -⟩ := h
  exact declared hs hy

/-- What a field must say of itself it says. -/
theorem exists_option (h : f.WellFormed) (key : String) {s : Schema}
    (hs : (key, Schema.required s) ∈ Language.options f.type)
    (hkey : key ∉ ["type", "items", "description"]) :
    ∃ y, f.options.find? key = some y ∧ s.Grants y := by
  obtain ⟨y, hy⟩ : ∃ y, f.options.find? key = some y := by
    obtain ⟨-, -, present, -, -⟩ := h
    exact present hs hkey rfl
  exact ⟨y, hy, (h.granted hs hy).required⟩

/-- A list that the language declares for the type of a field can be walked through. -/
theorem exists_elements (h : f.WellFormed) (key : String) {s : Schema}
    (hs : (key, Schema.array s {}) ∈ Language.options f.type) :
    ∃ ys, f.elements key = .ok ys ∧ ∀ y ∈ ys, s.Grants y := by
  unfold elements
  cases hy : f.options.find? key with
  | none => exact ⟨[], rfl, nofun⟩
  | some y => exact (h.granted hs hy).elements

theorem exists_constSchema (h : f.WellFormed)
    (type : f.type = .str "string" ∨ f.type = .str "boolean" ∨ f.type = .str "integer") :
    ∃ fixed, f.constSchema? = .ok fixed := by
  refine exists_constSchema_iff.mpr fun hconst y hy => ?_
  rcases type with type | type | type
  · have declared := Language.mem_options "string" rfl (e := ("enum", Language.texts)) (by simp)
    obtain ⟨ys, hys, -⟩ := (h.granted (type ▸ declared) hy).elements
    exact ⟨ys, hys⟩
  · obtain ⟨name, -, -, enum, -⟩ := h
    exact enum (Value.str.inj (name.symm.trans type)) hconst y hy
  · have declared := Language.mem_options "integer" rfl
      (e := ("enum", .array Language.anyInteger {})) (by simp)
    obtain ⟨ys, hys, -⟩ := (h.granted (type ▸ declared) hy).elements
    exact ⟨ys, hys⟩

theorem exists_format (h : f.WellFormed) (type : f.type = .str "string") :
    ∃ format?, f.format? = .ok format? := by
  have declared := Language.mem_options "string" rfl
    (e := ("format", .enum (Format.all.map (.str ·.name)))) (by simp)
  unfold format? option? Field.option Entries.getValue
  cases hy : Entries.find? f.options "format" with
  | none => exact ⟨none, rfl⟩
  | some y =>
    have granted := h.granted (type ▸ declared) hy
    rw [show Format.all.map (fun x => Value.str x.name) = (Format.all.map Format.name).map .str by
      rw [List.map_map]; rfl] at granted
    obtain ⟨t, ht, rfl⟩ := granted.eq_str_of_enum
    obtain ⟨format, -, rfl⟩ := List.mem_map.mp ht
    refine ⟨some format, ?_⟩
    simp [Value.ofOption, Value.present?, Value.isKey, Value.str?, Format.ofName?_name]

theorem exists_stringSchema (h : f.WellFormed) (type : f.type = .str "string") :
    ∃ s, f.stringSchema = .ok s := by
  obtain ⟨fixed, hfixed⟩ := h.exists_constSchema (.inl type)
  obtain ⟨format?, hformat⟩ := h.exists_format type
  cases fixed with
  | some s => exact ⟨s, by simp [stringSchema, hfixed, Except.pure_eq_ok]⟩
  | none => exact ⟨_, by simp [stringSchema, hfixed, textRules, hformat]; rfl⟩

theorem exists_mediaPattern {accept : Value} {xs : List Value} (hxs : accept.elements = .ok xs)
    (texts : ∀ x ∈ xs, ∃ t, x = .str t) : ∃ pattern, mediaPattern accept = .ok pattern := by
  unfold mediaPattern
  split_ifs
  · obtain ⟨all, hall⟩ := Value.exists_isElement "*/*" hxs
    cases all with
    | true => exact ⟨.any, by simp [hall, Except.pure_eq_ok]⟩
    | false =>
      obtain ⟨ts, hts⟩ := List.exists_forall₂ texts
      refine ⟨.globs ts, ?_⟩
      simp only [hall, hxs, Except.ok_bind, Bool.false_eq_true, if_false, Except.bind_eq_ok_iff,
        Except.mapM_eq_ok_iff]
      refine ⟨ts, hts.imp fun x t hx => ?_, rfl⟩
      subst hx
      rfl
  · exact ⟨.any, rfl⟩

theorem exists_compileBlob (h : f.WellFormed) (type : f.type = .str "blob") :
    ∃ compiled, f.compileBlob = .ok compiled := by
  have declared := Language.mem_options "blob" rfl (e := ("accept", Language.texts)) (by simp)
  cases hy : Entries.find? f.options "accept" with
  | none =>
    have absent : f.option "accept" = .null := by
      simp [Field.option, Entries.getValue, hy, Value.ofOption]
    refine ⟨_, by
      simp only [compileBlob, absent, mediaPattern, Value.isTrue]
      rfl⟩
  | some y =>
    have given : f.option "accept" = y := by
      simp [Field.option, Entries.getValue, hy, Value.ofOption]
    obtain ⟨ys, hys, texts⟩ := (h.granted (type ▸ declared) hy).elements
    obtain ⟨pattern, hpattern⟩ := exists_mediaPattern hys fun x hx => (texts x hx).exists_str
    simp only [compileBlob, given, hpattern, Except.ok_bind]
    split_ifs
    · exact ⟨_, by rw [hys]; rfl⟩
    · exact ⟨_, rfl⟩

end WellFormed

theorem faultsAre_readReference (nsid t : String) :
    FaultsAre Fault.IsCompile (readReference nsid (.str t)) := by
  unfold readReference
  split
  · split
    · exact .ok _
    · exact FaultsAre.compile _
  · next other => exact absurd rfl (other t)

/-- A well-formed field of a known type compiles, or refers to what is no reference. -/
theorem faultsAre_of_compileScalar (h : f.WellFormed) {nsid type : String}
    (htype : f.type = .str type) {result : Except Fault CompiledField}
    (hresult : f.compileScalar? nsid type = some result) :
    FaultsAre Fault.IsCompile result := by
  unfold compileScalar? at hresult
  split at hresult <;> first | obtain rfl := Option.some.inj hresult | simp at hresult
  · obtain ⟨s, hs⟩ := h.exists_stringSchema htype
    obtain ⟨known, hknown, -⟩ := h.exists_elements "knownValues" (s := .text)
      (htype ▸ Language.mem_options "string" rfl (by simp [Language.texts]))
    simp only [compileString, hs, hknown, Except.ok_bind]
    exact .pure _
  · obtain ⟨fixed, hfixed⟩ := h.exists_constSchema (.inr (.inl htype))
    simp only [hfixed, Except.ok_bind]
    exact .pure _
  · obtain ⟨fixed, hfixed⟩ := h.exists_constSchema (.inr (.inr htype))
    simp only [hfixed, Except.ok_bind]
    exact .pure _
  · obtain ⟨compiled, hcompiled⟩ := h.exists_compileBlob htype
    rw [hcompiled]
    exact .ok _
  · exact .ok _
  · exact .ok _
  · obtain ⟨y, hy, granted⟩ := h.exists_option "ref" (s := .text)
      (htype ▸ Language.mem_options "ref" rfl (by simp)) (by simp)
    obtain ⟨t, rfl⟩ := granted.exists_str
    have given : f.option "ref" = .str t := by
      simp [Field.option, Entries.getValue, hy, Value.ofOption]
    rw [given]
    exact .bind (faultsAre_readReference nsid t) fun _ _ => .pure _
  · obtain ⟨y, hy, granted⟩ := h.exists_option "refs" (s := Language.texts)
      (htype ▸ Language.mem_options "union" rfl (by simp)) (by simp)
    obtain ⟨ys, hys, texts⟩ := granted.elements
    have elements : f.elements "refs" = .ok ys := by
      simp [Field.elements, hy, hys]
    simp only [compileUnion, elements, Except.ok_bind]
    refine .bind (.mapM fun x hx => ?_) fun _ _ => .pure _
    obtain ⟨t, rfl⟩ := (texts x hx).exists_str
    exact faultsAre_readReference nsid t
  · exact .ok _

theorem faultsAre_compileUnrecognized (type : Value) (nsid : String) (strict : Bool) :
    FaultsAre Fault.IsCompile (compileUnrecognized type nsid strict).outcome := by
  unfold compileUnrecognized
  split_ifs
  · exact FaultsAre.compile _
  · exact .traced_bind (.ok _) fun _ _ => .ok _

/-- A well-formed field compiles, or the document does not. -/
theorem WellFormed.faultsAre_compile (h : f.WellFormed) (nsid : String) (strict : Bool) :
    FaultsAre Fault.IsCompile (f.compile nsid strict).outcome := by
  fun_induction Field.compile nsid strict f with
  | case1 => exact FaultsAre.compile _
  | case2 options items description ih =>
    obtain ⟨-, -, -, -, hitems⟩ := h
    exact .traced_bind (ih (hitems items rfl)) fun _ _ => .ok _
  | case3 type _ _ _ _ _ result hscalar => exact faultsAre_of_compileScalar h rfl hscalar
  | case4 => exact faultsAre_compileUnrecognized _ _ _
  | case5 => exact faultsAre_compileUnrecognized _ _ _
  | case6 type _ _ _ _ _ other =>
    obtain ⟨htype, -, -, -, -⟩ := h
    exact absurd htype (other _)

end Field

/-! ### Record types -/

namespace RecordType

/-- A property that a slot can be made for: its attribute is an identifier in normal form, and its
default could not be changed in place unless the property must be given. -/
structure Fits (rule : SlotRule) : Prop where
  identifier : Text.isIdentifier (slotOf rule).attr = true
  normalized : Text.isNormalized (slotOf rule).attr.toList = true
  default : isEnforced rule = true ∨ (slotOf rule).default.isKey = true

instance instDecidableFits (rule : SlotRule) : Decidable (Fits rule) :=
  decidable_of_iff (Text.isIdentifier (slotOf rule).attr = true ∧
      Text.isNormalized (slotOf rule).attr.toList = true ∧
      (isEnforced rule = true ∨ (slotOf rule).default.isKey = true))
    ⟨fun ⟨identifier, normalized, default⟩ => ⟨identifier, normalized, default⟩,
      fun ⟨identifier, normalized, default⟩ => ⟨identifier, normalized, default⟩⟩

/-- The slot that holds the type of a record fits. -/
theorem fits_typeRule (name : String) :
    Fits { key := Naming.typeKey, default := some (.str name) } where
  identifier := show Text.isIdentifier (Naming.attributeName Naming.typeKey) = true by
    decide +kernel
  normalized := show Text.isNormalized (Naming.attributeName Naming.typeKey).toList = true by
    decide +kernel
  default := .inr rfl

/-- A record type whose properties fit is made, or the document does not compile. -/
theorem faultsAre_build {name nsid key : String} {rules : List SlotRule}
    {typeName : Option String} (fits : ∀ rule ∈ rules, rule.key ≠ Naming.typeKey → Fits rule) :
    FaultsAre Fault.IsCompile (build name nsid key rules typeName) := by
  -- the slot that holds the type of the record is the only one that no property asks for
  have arranged : ∀ rule ∈ arrange rules typeName, Fits rule := by
    intro rule hrule
    rcases List.mem_append.mp hrule with hrule | hrule
    · obtain ⟨mem, other⟩ := List.mem_filter.mp hrule
      exact fits rule mem (by simpa using other)
    · cases typeName with
      | none => simp at hrule
      | some name =>
        obtain rfl := List.mem_singleton.mp hrule
        exact fits_typeRule name
  have identifiers :
      ((arrange rules typeName).map slotOf).all (Text.isIdentifier ·.attr) = true := by
    rw [List.all_map, List.all_eq_true]
    exact fun rule hrule => (arranged rule hrule).identifier
  have normalized : ((arrange rules typeName).map slotOf).all
      (fun slot => Text.isNormalized slot.attr.toList) = true := by
    rw [List.all_map, List.all_eq_true]
    exact fun rule hrule => (arranged rule hrule).normalized
  refine .bind (faultsAre_checkAttributes _ _ _ _) fun _ _ => ?_
  simp only [identifiers, normalized, if_true]
  refine .bind (.forM fun rule hrule => ?_) fun _ _ => .pure _
  have holds : (isEnforced rule || (slotOf rule).default.isKey) = true := by
    simpa using (arranged rule hrule).default
  simp only [checkDefault, holds, if_true, FaultsAre.ok]

end RecordType

/-! ### Definitions -/

namespace Definition

theorem faultsAre_checkDeclared (nsid key group t : String) (properties : Entries Field) :
    FaultsAre Fault.IsCompile (checkDeclared nsid key group properties (.str t)) := by
  unfold checkDeclared
  dsimp only
  split_ifs
  · exact .ok _
  · exact FaultsAre.compile _
  · next other => simp [Value.isKey] at other

/-- What the slot of a property is made from. -/
def propertyRule (body : ObjectBody) (e : String × Field) : SlotRule where
  key := e.1
  required := mustBePresent body e.1
  nullable := mayBeNull body e.1
  default := e.2.options.find? "default"

/-- A component whose properties have slots that fit. -/
def Component.Fits : Component → Prop
  | .object body _ _ => ∀ e ∈ body.properties, e.1 ≠ Naming.typeKey →
      RecordType.Fits (propertyRule body e)
  | .call _ | .field _ | .token => True

instance Component.instDecidableFits : (c : Component) → Decidable c.Fits
  | .object body _ _ => inferInstanceAs (Decidable (∀ e ∈ body.properties, e.1 ≠ Naming.typeKey →
      RecordType.Fits (propertyRule body e)))
  | .call _ | .field _ | .token => .isTrue trivial

/-- A well-formed object whose properties fit compiles, or the document does not. -/
theorem faultsAre_compileObject {body : ObjectBody} (wellFormed : body.WellFormed)
    {typeName : Option String} {brand : Entries Field}
    (fits : (Component.object body typeName brand).Fits)
    (hbrand : ∀ e ∈ brand, e.1 = Naming.typeKey ∧ ∃ name, e.2 = brandField name)
    (nsid key className : String) (strict : Bool) (description : Value) :
    FaultsAre Fault.IsCompile (compileObject nsid key className strict body typeName brand
      description).outcome := by
  have declared (group : String) {names : List Value} (texts : ∀ v ∈ names, ∃ t, v = .str t) :
      FaultsAre Fault.IsCompile (names.forM fun name => (liftM (checkDeclared nsid key group
        (body.properties.merge brand) name) : Traced Unit)).outcome := by
    rw [Traced.outcome_forM]
    refine .forM fun name hname => ?_
    obtain ⟨t, rfl⟩ := texts name hname
    exact faultsAre_checkDeclared _ _ _ _ _
  refine .traced_bind (declared _ wellFormed.required) fun _ _ =>
    .traced_bind (declared _ wellFormed.nullable) fun _ _ => ?_
  refine .traced_bind ?_ fun compiled hcompiled => .traced_bind ?_ fun _ _ => .ok _
  · rw [Traced.outcome_mapM]
    refine .mapM fun e he => .traced_bind ?_ fun _ _ => .ok _
    rcases Entries.mem_merge he with he | he
    · exact (wellFormed.properties e he).faultsAre_compile _ _
    · obtain ⟨-, name, hname⟩ := hbrand e he
      rw [hname, compile_brandField]
      exact .ok _
  · refine RecordType.faultsAre_build fun rule hrule hkey => ?_
    obtain ⟨p, hp, rfl⟩ := List.mem_map.mp hrule
    rw [Traced.outcome_mapM, Except.mapM_eq_ok_iff] at hcompiled
    obtain ⟨e, he, hep⟩ := hcompiled.exists_left hp
    obtain ⟨_, -, rfl⟩ := propertyCompiles_of_outcome hep
    rcases Entries.mem_merge he with he | he
    · exact fits e he hkey
    · exact absurd (hbrand e he).1 hkey

/-- A well-formed part of a call compiles, or the document does not. -/
theorem faultsAre_compilePart {schema : BodySchema} (wellFormed : schema.WellFormed)
    (fits : (Component.ofPart schema).Fits) (nsid key : String) (strict : Bool)
    (description : Value) :
    FaultsAre Fault.IsCompile (compilePart nsid key strict schema description).outcome := by
  cases schema with
  | object body => exact faultsAre_compileObject wellFormed fits nofun _ _ _ _ _
  | field f => exact .traced_bind (wellFormed.faultsAre_compile _ _) fun _ _ => .ok _

/-- The fields that a call has of its own fit. -/
theorem fits_callFields {nsid : String} {d : Definition} {call : Call} {keys : List String} :
    ∀ p ∈ callFields nsid d call keys, RecordType.Fits p.rule := by
  have fits {name : String} (compiled : CompiledField) (required : Bool)
      (identifier : Text.isIdentifier (Naming.attributeName name) = true)
      (normalized : Text.isNormalized (Naming.attributeName name).toList = true) :
      RecordType.Fits (CompiledProperty.of name { type := .null } compiled required false).rule :=
    ⟨identifier, normalized, .inr rfl⟩
  intro p hp
  rcases mem_callFields hp with ⟨key, hkey, required, rfl⟩ | rfl
  · simp only [List.mem_cons, List.not_mem_nil, or_false] at hkey
    rcases hkey with rfl | rfl
    · exact fits _ _ (by decide +kernel) (by decide +kernel)
    · exact fits _ _ (by decide +kernel) (by decide +kernel)
  · exact fits _ _ (by decide +kernel) (by decide +kernel)

theorem faultsAre_compileCall {d : Definition} {call : Call}
    (wellFormed : ∀ p ∈ d.parts call, p.2.1.WellFormed)
    (fits : ∀ p ∈ d.parts call, (Component.ofPart p.2.1).Fits) (nsid key className : String)
    (strict : Bool) :
    FaultsAre Fault.IsCompile (compileCall nsid key className strict d call).outcome := by
  refine .traced_bind ?_ fun _ _ => .traced_bind ?_ fun _ _ => .ok _
  · rw [Traced.outcome_mapM]
    exact .mapM fun p hp => faultsAre_compilePart (wellFormed p hp) (fits p hp) _ _ _ _
  · refine RecordType.faultsAre_build fun rule hrule _ => ?_
    obtain ⟨p, hp, rfl⟩ := List.mem_map.mp hrule
    exact fits_callFields p hp

/-- A well-formed definition whose properties fit compiles, or the document does not. -/
theorem WellFormed.faultsAre_compile {d : Definition} (wellFormed : d.WellFormed)
    {nsid key : String} (fits : ∀ e ∈ d.components nsid key, e.2.Fits) (className : String)
    (strict : Bool) : FaultsAre Fault.IsCompile (d.compile nsid key className strict).outcome := by
  have wellFormed := wellFormed nsid key
  cases d with
  | record body =>
    refine .traced_bind (faultsAre_compileObject (wellFormed _ List.mem_cons_self)
      (fits _ List.mem_cons_self) (fun e he => ?_) _ _ _ _ _) fun _ _ => .ok _
    obtain rfl := List.mem_singleton.mp he
    exact ⟨rfl, _, rfl⟩
  | object body =>
    exact .traced_bind (faultsAre_compileObject (wellFormed _ List.mem_cons_self)
      (fits _ List.mem_cons_self) nofun _ _ _ _ _) fun _ _ => .ok _
  | query call | procedure call | subscription call =>
    refine faultsAre_compileCall (fun p hp => ?_) (fun p hp => ?_) _ _ _ _
    · exact wellFormed _ (List.mem_cons_of_mem _ (List.mem_map_of_mem hp))
    · exact fits _ (List.mem_cons_of_mem _ (List.mem_map_of_mem hp))
  | token => exact .ok _
  | field f =>
    exact .traced_bind ((wellFormed _ List.mem_cons_self).faultsAre_compile _ _) fun _ _ => .ok _

end Definition

/-! ### Documents -/

namespace Document

/-- All properties of a document have slots that fit. -/
def Fits (d : Document) : Prop :=
  ∀ e ∈ d.components, e.2.Fits

instance instDecidableFits (d : Document) : Decidable d.Fits :=
  inferInstanceAs (Decidable (∀ e ∈ d.components, e.2.Fits))

theorem faultsAre_compileDefinitions (d : Document) (strict : Bool)
    {definitions : Entries Definition} (wellFormed : ∀ e ∈ definitions, e.2.WellFormed)
    (fits : ∀ e ∈ definitions, ∀ c ∈ e.2.components d.id e.1, c.2.Fits)
    (done : Entries CompiledDefinition) :
    FaultsAre Fault.IsCompile (d.compileDefinitions strict done definitions).outcome := by
  induction definitions generalizing done with
  | nil => exact .ok _
  | cons e rest ih =>
    refine .traced_bind ((wellFormed e List.mem_cons_self).faultsAre_compile
      (fits e List.mem_cons_self) _ _) fun _ _ => ?_
    refine .traced_bind (faultsAre_addCompiled _ _ _ _) fun done _ => ?_
    exact ih (fun e he => wellFormed e (List.mem_cons_of_mem _ he))
      (fun e he => fits e (List.mem_cons_of_mem _ he)) done

/-- A well-formed document whose properties fit compiles, or ends with a compile error. -/
theorem WellFormed.faultsAre_compile {d : Document} (wellFormed : d.WellFormed) (fits : d.Fits)
    (id : BundleId) (registry : Nat) (strict : Bool) :
    FaultsAre Fault.IsCompile (d.compile id registry strict).outcome := by
  refine .traced_bind (.traced_bind (faultsAre_checkClassNames _ _ _) fun _ _ => ?_)
    fun _ _ => .ok _
  refine faultsAre_compileDefinitions d strict wellFormed (fun e he c hc => ?_) []
  exact fits c (List.mem_flatMap.mpr ⟨e, he, hc⟩)

end Document

end Lexicon
