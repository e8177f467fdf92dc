import Lexicon.Proofs.Record.Hydrate
import Lexicon.Proofs.Registry.Faults
import Lexicon.Proofs.Registry.WriteOnce

/-!
# What making records keeps

Records are made of a checked value one after the other: for each, the bundle of its type is asked
for, and its parts come first. Main statements: what holds of the single steps holds of making
records, whatever the value; in particular reading a value changes the registry only as asking for
bundles does.
-/

namespace Lexicon

/-! ### Properties of actions -/

/-- A property of actions that composes, and that the steps of making records have: to ask for a
bundle, and to compute what finds no failure. -/
structure Action.Modality (env : Surroundings) where
  holds : ∀ {α : Type}, Action α → Prop
  lift : ∀ {α : Type} {result : Except Fault α}, NoFailure result → holds (Action.lift result)
  bind : ∀ {α β : Type} {x : Action α} {f : α → Action β}, holds x → (∀ a, holds (f a)) →
    holds (x >>= f)
  bundle : ∀ nsid : String, holds (Registry.bundle env nsid)

theorem NoFailure.definition (b : Bundle) (key : String) : NoFailure (b.definition key) := by
  unfold Bundle.definition
  split <;> simp [NoFailure]

theorem RecordType.noFailure_record (t : RecordType) (id : ClassId) (arguments : Entries Value) :
    NoFailure (t.record id arguments) := by
  refine NoFailure.map _ ?_
  unfold fill
  split_ifs
  · refine NoFailure.mapM (fun slot => ?_) _
    split
    · exact .ok _
    · split_ifs <;> simp [NoFailure]
  · simp [NoFailure]

namespace Action.Modality

variable {env : Surroundings} (M : Action.Modality env) {α β : Type}

theorem pure (a : α) : M.holds (Pure.pure a : Action α) :=
  M.lift (.ok a)

theorem mapM {f : α → Action β} (hf : ∀ a, M.holds (f a)) (xs : List α) :
    M.holds (xs.mapM f) := by
  induction xs with
  | nil => exact M.pure []
  | cons x xs ih =>
    rw [List.mapM_cons]
    exact M.bind (hf x) fun _ => M.bind ih fun _ => M.pure _

theorem argumentsFrom (t : RecordType) (type : DefinitionType) (v : Value)
    {part : String → Option FieldType → Action Value}
    (hpart : ∀ key type, M.holds (part key type)) :
    M.holds (t.argumentsFrom type v part) := by
  refine M.bind (M.mapM (fun slot => ?_) _) fun found => M.pure _
  refine M.bind (M.lift (.isElement _ _)) fun given => ?_
  split
  · refine M.bind (M.lift (.member _ _)) fun _ => ?_
    exact M.bind (hpart _ _) fun _ => M.pure _
  · exact M.pure none

private theorem hydrateItems {items : List Value} {type : FieldType}
    (h : ∀ x ∈ items, M.holds (Value.hydrate env x type)) :
    M.holds (Value.hydrateItems env items type) := by
  induction items with
  | nil => exact M.pure []
  | cons x rest ih =>
    rw [List.forall_mem_cons] at h
    rw [Value.hydrateItems]
    exact M.bind h.1 fun y => M.bind (ih h.2) fun _ => M.pure _

private theorem hydrate_object {es : Entries Value}
    (h : ∀ e ∈ es, ∀ type, M.holds (Value.hydrate env e.2 type)) (type : FieldType) :
    M.holds ((Value.object es).hydrate env type) := by
  rw [Value.hydrate]
  cases type.core.target? es with
  | none => exact M.pure _
  | some target =>
    refine M.bind (M.bundle target.nsid) fun b => ?_
    refine M.bind (M.lift (.definition b target.fragment)) fun definition => ?_
    cases b.binding? target.fragment with
    | none => exact M.pure _
    | some binding =>
      refine M.bind (M.argumentsFrom _ _ _ fun key partType => ?_)
        fun arguments => M.lift (binding.recordType.noFailure_record _ arguments)
      rw [Value.find?_hydrators]
      cases hx : es.find? key with
      | none => exact M.pure _
      | some x =>
        cases partType with
        | none => exact M.pure _
        | some partType => exact h _ (Entries.mem_of_find?_eq_some hx) partType

theorem hydrate (v : Value) (type : FieldType) : M.holds (v.hydrate env type) := by
  induction v using Value.depth_induction generalizing type with
  | step v ih =>
    cases v with
    | list items =>
      rw [Value.hydrate]
      cases type.core with
      | array itemType =>
        refine M.bind (M.hydrateItems fun x hx => ?_) fun _ => M.pure _
        exact ih x (Value.depth_lt_of_mem_items hx) itemType
      | _ => exact M.pure _
    | object es =>
      refine M.hydrate_object (fun e he partType => ?_) type
      exact ih e.2 (Value.depth_lt_of_mem_entries he) partType
    | _ => exact M.pure _

/-- **What holds of the steps holds of making records.** -/
theorem ofChecked (t : RecordType) (id : ClassId) (type : DefinitionType) (v : Value) :
    M.holds (t.ofChecked env id type v) := by
  refine M.bind (M.argumentsFrom t type v fun key partType => ?_)
    fun arguments => M.lift (t.noFailure_record id arguments)
  refine M.bind (M.lift (.member _ _)) fun part => ?_
  cases partType with
  | none => exact M.pure part
  | some type => exact M.hydrate part type

end Action.Modality

/-! ### What reading changes -/

namespace Registry

variable (env : Surroundings)

/-- Changing the registry only step by step. -/
def changingOnly : Action.Modality env where
  holds x := (changing env).rel x x
  lift _ := (changing env).rel_lift _
  bind hx hf := (changing env).rel_bind hx hf
  bundle nsid s := by
    rw [(run_bundle env nsid s).2]
    exact changes_asked s.registry nsid

variable {env}

theorem changes_check (schema : Schema) (v : Value) :
    (changing env).rel (check env schema v) (check env schema v) := by
  refine (changing env).rel_bind (changes_verdict schema v) fun verdict => ?_
  cases verdict with
  | ok n => exact (changing env).rel_pure n
  | error failure => exact (changing env).rel_throw _

end Registry

namespace Bundle

variable {env : Surroundings} (b : Bundle) (key : String) (v : Value)

theorem changes_readRecord :
    (Registry.changing env).rel (b.readRecord env key v) (b.readRecord env key v) := by
  refine (Registry.changing env).rel_bind ((Registry.changing env).rel_lift _) fun _ => ?_
  cases b.binding? key with
  | none => exact (Registry.changing env).rel_throw _
  | some binding =>
    refine (Registry.changing env).rel_bind (Registry.changes_definition _) fun definition => ?_
    refine (Registry.changing env).rel_bind (Registry.changes_check _ v) fun checked => ?_
    exact (Registry.changingOnly env).ofChecked _ _ _ checked

/-- **Reading changes a registry as asking does.** A value that is read by a definition of a bundle,
whether records are made of it or not, changes the registry only step by step. -/
theorem changes_read : (Registry.changing env).rel (b.read env key v) (b.read env key v) := by
  refine (Registry.changing env).rel_bind ((Registry.changing env).rel_lift _) fun definition => ?_
  split_ifs
  · exact b.changes_readRecord key v
  · exact Registry.changes_check _ v

end Bundle

end Lexicon
