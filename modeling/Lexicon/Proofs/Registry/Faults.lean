import Lexicon.Proofs.Check.Simulation
import Lexicon.Proofs.Compile.Definition
import Lexicon.Proofs.Compile.Field
import Lexicon.Proofs.Document.Reading
import Lexicon.Registry.Basic

/-!
# Faults of loading

Reading and compiling a document never end with a failure of a value: what is wrong with a document
is a fault of its own kind, which nothing recovers from. Main statements: this holds of every
document that is compiled and of every document that a source loads.
-/

namespace Lexicon

variable {α β : Type}

/-- Does not end with a failure of a value. -/
def NoFailure (x : Except Fault α) : Prop :=
  ∀ f, x ≠ .error (.invalid f)

namespace NoFailure

@[simp] theorem ok (a : α) : NoFailure (.ok a) := nofun

@[simp] theorem pure (a : α) : NoFailure (Pure.pure a) := nofun

theorem iff_faultsAre {x : Except Fault α} :
    NoFailure x ↔ FaultsAre (fun e => ∀ f, e ≠ .invalid f) x :=
  ⟨fun h _ he f hf => h f (hf ▸ he), fun h f hx => h _ hx f rfl⟩

/-- A document that does not compile is no failure of a value. -/
theorem of_compile {x : Except Fault α} (h : FaultsAre Fault.IsCompile x) : NoFailure x := by
  rintro f rfl
  obtain ⟨c, hc⟩ := FaultsAre.error_iff.mp h
  cases hc

theorem bind {x : Except Fault α} {f : α → Except Fault β} (hx : NoFailure x)
    (hf : ∀ a, NoFailure (f a)) : NoFailure (x >>= f) :=
  iff_faultsAre.mpr <| .bind (iff_faultsAre.mp hx) fun a _ => iff_faultsAre.mp (hf a)

theorem map {x : Except Fault α} (f : α → β) (hx : NoFailure x) : NoFailure (f <$> x) :=
  iff_faultsAre.mpr <| .map f (iff_faultsAre.mp hx)

theorem mapM {f : α → Except Fault β} (hf : ∀ a, NoFailure (f a)) (xs : List α) :
    NoFailure (xs.mapM f) :=
  iff_faultsAre.mpr <| .mapM fun x _ => iff_faultsAre.mp (hf x)

theorem forM {f : α → Except Fault Unit} (hf : ∀ a, NoFailure (f a)) (xs : List α) :
    NoFailure (xs.forM f) :=
  iff_faultsAre.mpr <| .forM fun x _ => iff_faultsAre.mp (hf x)

theorem traced_bind {t : Traced α} {f : α → Traced β} (ht : NoFailure t.outcome)
    (hf : ∀ a, NoFailure (f a).outcome) : NoFailure (t >>= f).outcome :=
  iff_faultsAre.mpr <| .traced_bind (iff_faultsAre.mp ht) fun a _ => iff_faultsAre.mp (hf a)

/-! ### Values and fields -/

theorem elements (v : Value) : NoFailure v.elements := by
  cases v <;> simp [Value.elements, NoFailure]

theorem entries (v : Value) : NoFailure v.entries := by
  cases v <;> simp [Value.entries, NoFailure]

theorem member (v : Value) (key : String) : NoFailure (v.member key) := by
  unfold Value.member
  split
  · split <;> simp [NoFailure]
  · simp [NoFailure]

theorem isElement (x v : Value) : NoFailure (x.isElement v) := by
  unfold Value.isElement
  split
  · exact ok _
  · simp [NoFailure]
  · split_ifs <;> simp [NoFailure]
  · exact bind (elements _) fun _ => ok _

theorem constSchema? (f : Field) : NoFailure f.constSchema? := by
  unfold Field.constSchema?
  split
  · exact ok _
  · exact bind (elements _) fun _ => ok _
  · exact ok _

theorem format? (f : Field) : NoFailure f.format? := by
  unfold Field.format?
  split
  · exact ok _
  · split_ifs
    · simp [NoFailure]
    · split <;> simp [NoFailure]

theorem stringSchema (f : Field) : NoFailure f.stringSchema := by
  refine bind (constSchema? f) fun fixed => ?_
  cases fixed with
  | some s => exact ok _
  | none => exact bind (bind (format? f) fun _ => ok _) fun _ => ok _

theorem readReference (nsid : String) (v : Value) : NoFailure (Field.readReference nsid v) := by
  unfold Field.readReference
  split
  · split <;> simp [NoFailure]
  · simp [NoFailure]

theorem mediaPattern (accept : Value) : NoFailure (Field.mediaPattern accept) := by
  unfold Field.mediaPattern
  split_ifs
  · refine bind (isElement _ _) fun all => ?_
    split_ifs
    · exact ok _
    · refine bind (elements _) fun globs => bind (mapM (fun g => ?_) _) fun _ => ok _
      cases g <;> simp [NoFailure, Except.throw_eq_error, Except.pure_eq_ok]
  · exact ok _

theorem compileBlob (f : Field) : NoFailure f.compileBlob := by
  refine bind (mediaPattern _) fun pattern => ?_
  dsimp only
  split_ifs
  · exact bind (elements _) fun _ => ok _
  · exact ok _

theorem compileScalar {f : Field} {nsid type : String} {result : Except Fault CompiledField}
    (h : f.compileScalar? nsid type = some result) : NoFailure result := by
  unfold Field.compileScalar? at h
  split at h <;> first | (obtain rfl := Option.some.inj h) | simp at h
  · exact bind (stringSchema f) fun _ => bind (elements _) fun _ => ok _
  · exact bind (constSchema? f) fun _ => ok _
  · exact bind (constSchema? f) fun _ => ok _
  · exact compileBlob f
  · exact ok _
  · exact ok _
  · exact bind (readReference _ _) fun _ => ok _
  · exact bind (elements _) fun _ => bind (mapM (readReference nsid) _) fun _ => ok _
  · exact ok _

theorem compileUnrecognized (type : Value) (nsid : String) (strict : Bool) :
    NoFailure (Field.compileUnrecognized type nsid strict).outcome := by
  unfold Field.compileUnrecognized
  split_ifs
  · simp [NoFailure]
  · exact traced_bind (ok _) fun _ => ok _

theorem compileField (nsid : String) (strict : Bool) (f : Field) :
    NoFailure (f.compile nsid strict).outcome := by
  fun_induction Field.compile nsid strict f with
  | case1 => simp [NoFailure]
  | case2 options items description ih => exact traced_bind ih fun _ => ok _
  | case3 type _ _ _ _ _ result hscalar => exact compileScalar hscalar
  | case4 => exact compileUnrecognized _ _ _
  | case5 => exact compileUnrecognized _ _ _
  | case6 => simp [NoFailure]

/-! ### Definitions and documents -/

theorem checkDeclared (nsid key group : String) (properties : Entries Field) (name : Value) :
    NoFailure (Definition.checkDeclared nsid key group properties name) := by
  unfold Definition.checkDeclared
  dsimp only
  split_ifs <;> simp [NoFailure]

theorem checkAttributes (nsid name : String) (seen : Entries String) (slots : List Slot) :
    NoFailure (RecordType.checkAttributes nsid name seen slots) :=
  of_compile (RecordType.faultsAre_checkAttributes _ _ _ _)

theorem checkDefault (rule : SlotRule) : NoFailure (RecordType.checkDefault rule) := by
  unfold RecordType.checkDefault
  dsimp only
  split_ifs <;> simp [NoFailure]

theorem build (name nsid key : String) (rules : List SlotRule) (typeName : Option String) :
    NoFailure (RecordType.build name nsid key rules typeName) := by
  have wrongType {γ : Type} (f : Unit → Except Fault γ) :
      NoFailure (throw Fault.wrongType >>= f) := nofun
  refine bind (checkAttributes _ _ _ _) fun _ => ?_
  dsimp only
  split_ifs
  · exact bind (forM checkDefault _) fun _ => ok _
  · exact bind (forM checkDefault _) fun _ => wrongType _
  · exact wrongType _
  · exact wrongType _

theorem compileObject (nsid key className : String) (strict : Bool) (body : ObjectBody)
    (typeName : Option String) (brand : Entries Field) (description : Value) :
    NoFailure (Definition.compileObject nsid key className strict body typeName brand
      description).outcome := by
  have declared (group : String) (names : List Value) :
      NoFailure (names.forM fun name => (liftM (Definition.checkDeclared nsid key group
        (body.properties.merge brand) name) : Traced Unit)).outcome := by
    rw [Traced.outcome_forM]
    exact forM (checkDeclared _ _ _ _) _
  refine traced_bind (declared _ _) fun _ => traced_bind (declared _ _) fun _ => ?_
  refine traced_bind ?_ fun _ => traced_bind (build _ _ _ _ _) fun _ => ok _
  rw [Traced.outcome_mapM]
  exact mapM (fun e => traced_bind (compileField _ _ _) fun _ => ok _) _

theorem compilePart (nsid key : String) (strict : Bool) (schema : BodySchema)
    (description : Value) :
    NoFailure (Definition.compilePart nsid key strict schema description).outcome := by
  cases schema with
  | object body => exact compileObject _ _ _ _ _ _ _ _
  | field f => exact traced_bind (compileField _ _ _) fun _ => ok _

theorem compileCall (nsid key className : String) (strict : Bool) (d : Definition) (call : Call) :
    NoFailure (Definition.compileCall nsid key className strict d call).outcome := by
  refine traced_bind ?_ fun _ => traced_bind (build _ _ _ _ _) fun _ => ok _
  rw [Traced.outcome_mapM]
  exact mapM (fun p => compilePart _ _ _ _ _) _

theorem compileDefinition (nsid key className : String) (strict : Bool) (d : Definition) :
    NoFailure (d.compile nsid key className strict).outcome := by
  cases d with
  | record | object => exact traced_bind (compileObject _ _ _ _ _ _ _ _) fun _ => ok _
  | query | procedure | subscription => exact compileCall _ _ _ _ _ _
  | token => exact ok _
  | field f => exact traced_bind (compileField _ _ _) fun _ => ok _

theorem addCompiled (id name : String) (done : Entries CompiledDefinition)
    (cs : List CompiledDefinition) : NoFailure (Document.addCompiled id name done cs) :=
  of_compile (Document.faultsAre_addCompiled _ _ _ _)

theorem checkClassNames (d : Document) (seen : Entries String) (keys : List String) :
    NoFailure (d.checkClassNames seen keys) :=
  of_compile (Document.faultsAre_checkClassNames _ _ _)

theorem compileDefinitions (d : Document) (strict : Bool) (done : Entries CompiledDefinition)
    (definitions : Entries Definition) :
    NoFailure (d.compileDefinitions strict done definitions).outcome := by
  induction definitions generalizing done with
  | nil => exact ok _
  | cons e rest ih =>
    exact traced_bind (compileDefinition _ _ _ _ _) fun _ =>
      traced_bind (addCompiled _ _ _ _) fun _ => ih _

/-- Compiling a document does not end with a failure of a value. -/
theorem compile (d : Document) (id : BundleId) (registry : Nat) (strict : Bool) :
    NoFailure (d.compile id registry strict).outcome := by
  refine traced_bind (traced_bind (checkClassNames _ _ _) fun _ => ?_) fun _ => ok _
  exact compileDefinitions _ _ _ _

/-! ### Reading and loading -/

mutual

theorem fieldOfValue (v : Value) : NoFailure (Field.ofValue v) := by
  match v with
  | .object es =>
    simp only [Field.ofValue]
    exact bind (member _ _) fun _ => bind (itemsOf es) fun _ => ok _
  | .null | .bool _ | .int _ | .float _ | .str _ | .bytes _ | .list _ | .tuple _ | .record _ _ =>
    simp [Field.ofValue, NoFailure]

theorem itemsOf (es : List (String × Value)) : NoFailure (Field.itemsOf es) := by
  match es with
  | [] => exact ok _
  | (k, v) :: rest =>
    unfold Field.itemsOf
    split_ifs
    · exact ok _
    · exact map _ (fieldOfValue v)
    · exact itemsOf rest

end

theorem elementsOf (es : Entries Value) (key : String) : NoFailure (Lexicon.elementsOf es key) :=
  elements _

theorem propertiesOf (es : Entries Value) : NoFailure (Lexicon.propertiesOf es) :=
  bind (entries _) fun _ => mapM (fun _ => bind (fieldOfValue _) fun _ => ok _) _

theorem objectBodyOfValue (v : Value) : NoFailure (ObjectBody.ofValue v) :=
  bind (entries v) fun _ => bind (propertiesOf _) fun _ => bind (elementsOf _ _) fun _ =>
    bind (elementsOf _ _) fun _ => ok _

theorem parametersOfValue (v : Value) : NoFailure (Parameters.ofValue v) :=
  bind (entries v) fun _ => bind (propertiesOf _) fun _ => bind (elementsOf _ _) fun _ => ok _

theorem partOf {read : Value → Except Fault α} (hread : ∀ v, NoFailure (read v))
    (es : Entries Value) (key : String) : NoFailure (Lexicon.partOf read es key) := by
  unfold Lexicon.partOf
  cases (Entries.getValue es key).present? with
  | none => exact ok _
  | some v => exact map _ (hread v)

theorem bodyOfValue (v : Value) : NoFailure (Body.ofValue v) := by
  refine bind (entries v) fun es => bind (partOf (fun v => ?_) es "schema") fun _ => ok _
  refine bind (member v "type") fun type => ?_
  split_ifs
  · exact bind (objectBodyOfValue v) fun _ => ok _
  · exact bind (fieldOfValue v) fun _ => ok _

theorem errorsOf (es : Entries Value) : NoFailure (Lexicon.errorsOf es) :=
  bind (elementsOf _ _) fun _ => mapM (fun v => bind (member v _) fun _ =>
    bind (entries v) fun _ => ok _) _

theorem definitionOfValue (v : Value) : NoFailure (Definition.ofValue v) := by
  refine bind (member v "type") fun type => bind (entries v) fun es => ?_
  dsimp only
  split
  · exact bind (member v _) fun record => bind (objectBodyOfValue record) fun _ => ok _
  · exact bind (objectBodyOfValue v) fun _ => ok _
  · exact bind (partOf parametersOfValue es _) fun _ => bind (partOf bodyOfValue es _) fun _ =>
      bind (errorsOf es) fun _ => ok _
  · exact bind (partOf parametersOfValue es _) fun _ => bind (partOf bodyOfValue es _) fun _ =>
      bind (partOf bodyOfValue es _) fun _ => bind (errorsOf es) fun _ => ok _
  · exact bind (partOf parametersOfValue es _) fun _ => bind (partOf bodyOfValue es _) fun _ =>
      bind (errorsOf es) fun _ => ok _
  · exact ok _
  · exact bind (fieldOfValue v) fun _ => ok _

theorem checkPlace (id name : String) (definition : Value) :
    NoFailure (Document.checkPlace id name definition) := by
  unfold Document.checkPlace
  dsimp only
  split_ifs
  · exact ok _
  · simp [NoFailure]
  · split
    · split_ifs <;> simp [NoFailure]
    · exact ok _

theorem plainVerdict (s : Schema) (v : Value) : NoFailure (s.plainVerdict v) := by
  change NoFailure (Check.outcome (Check.attempt _))
  rw [Check.outcome_attempt]
  split
  · exact ok _
  · exact ok _
  · next proper _ => exact fun f h => proper f (Except.error.inj h)

theorem documentOfEntries (es : Entries Value) : NoFailure (Document.ofEntries es) := by
  have refused {γ : Type} (e : CompileError) (f : Unit → Except Fault γ) :
      NoFailure (Except.error (Fault.compile e) >>= f) := nofun
  have judged (f : Schema.Verdict → Except Fault Document)
      (failing : ∀ failure, NoFailure (f (.error failure)))
      (accepting : ∀ checked, NoFailure (f (.ok checked))) :
      NoFailure (Language.document.plainVerdict (.object es) >>= f) := by
    refine bind (plainVerdict _ _) fun verdict => ?_
    cases verdict with
    | error failure => exact failing failure
    | ok checked => exact accepting checked
  have accepted (id : String) (checked : Value) : NoFailure (do
      let es' ← checked.entries
      let definitions ← (← checked.member "defs").entries
      return ({
        id
        definitions := ← definitions.mapM fun e => return (e.1, ← Definition.ofValue e.2)
        version := ← checked.member "lexicon"
        revision := Entries.getValue es' "revision"
        description := Entries.getValue es' "description"
        source := .object es } : Document)) :=
    bind (entries _) fun _ => bind (member _ _) fun _ => bind (entries _) fun _ =>
      bind (mapM (fun _ => bind (definitionOfValue _) fun _ => ok _) _) fun _ =>
        bind (member _ _) fun _ => ok _
  simp only [Document.ofEntries]
  split_ifs
  · split
    · exact bind (forM (fun _ => checkPlace _ _ _) _) fun _ =>
        judged _ (fun _ => by simp [NoFailure]) (accepted _)
    · exact judged _ (fun _ => by simp [NoFailure]) (accepted _)
  · exact refused _ _
  · exact refused _ _
  · exact refused _ _

theorem documentOfValue (v : Value) : NoFailure (Document.ofValue v) := by
  cases v with
  | object es => exact documentOfEntries es
  | _ => simp [Document.ofValue, NoFailure]

theorem documentOfFile (path : String) (contents : List Char) :
    NoFailure (Document.ofFile path contents) := by
  have reading (text : List Char) (r : Except Json.SyntaxError Value) :
      NoFailure (Document.ofReading text r) := by
    cases r with
    | ok v => exact documentOfValue v
    | error e => simp [Document.ofReading, NoFailure]
  unfold Document.ofFile
  dsimp only
  split
  · simp [NoFailure]
  · exact reading _ _

theorem test (fs : FileSystem) (p : FilePath) (holds : FileTree → Bool) :
    NoFailure (fs.test p holds) := by
  unfold FileSystem.test
  split
  · exact ok _
  · split_ifs <;> simp [NoFailure]

theorem errorAt {α : Type} (p : FilePath) (result : Except FileErrorKind α) :
    NoFailure (FileSystem.errorAt p result) := by
  cases result <;> simp [FileSystem.errorAt, Except.mapError, NoFailure]

theorem loadFirst (files : FileSystem) (nsid : String) (paths : List FilePath) :
    NoFailure (Source.loadFirst files nsid paths) := by
  induction paths with
  | nil => exact ok _
  | cons path rest ih =>
    refine bind (test _ _ _) fun isFile => ?_
    split_ifs
    · refine bind (errorAt _ _) fun contents => bind (documentOfFile _ _) fun d => ?_
      split_ifs
      · exact ok _
      · exact nofun
    · exact ih

/-- Loading a document does not end with a failure of a value. -/
theorem load (env : Surroundings) (nsid : String) (source : Source) :
    NoFailure (source.load env nsid) := by
  cases source with
  | directory root =>
    simp only [Source.load]
    split_ifs
    · exact loadFirst _ _ _
    · exact ok _
  | bundled =>
    simp only [Source.load]
    split
    · exact bind (documentOfValue _) fun _ => ok _
    · exact ok _
  | documents ds => exact ok _

theorem boolOf (known : Entries (Option String)) (name : String) (otherwise : Bool) :
    NoFailure (Config.boolOf known name otherwise) := by
  unfold Config.boolOf
  split
  · unfold Config.readBool
    dsimp only
    split_ifs <;> simp [NoFailure]
  · exact ok _

theorem decideStrict (env : Surroundings) (strict : Option Bool) :
    NoFailure (Registry.decideStrict env strict) := by
  cases strict with
  | some strict => exact ok _
  | none =>
    exact bind (bind (boolOf _ _ _) fun _ => bind (boolOf _ _ _) fun _ => ok _) fun _ => ok _

end NoFailure

end Lexicon
