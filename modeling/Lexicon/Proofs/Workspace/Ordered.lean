import Lexicon.Proofs.Record.Making
import Lexicon.Proofs.Registry.Addressable
import Lexicon.Workspace

/-!
# Ordered workspaces

A workspace knows its registries by their places, and a bundle names the registry that leads its
references by its number. Main statement: whatever is done in a workspace that began with nothing,
each registry stands at its own number, and holds for an identifier only a bundle of a document with
this identifier, which looks for its references in it.
-/

namespace Lexicon

/-! ### Registries that know their number -/

/-- A bundle that the registry of a number holds for an identifier. But for the classes that were
bound later, it is what the document of this identifier compiles to. -/
structure Bundle.HeldBy (id : Nat) (nsid : String) (b : Bundle) : Prop where
  id_eq : b.id = .registered id nsid
  registry : b.registry = id
  faithful : Faithful nsid { b with bound := [] }

/-- A definition of a held bundle is known by the identifier and its key. -/
theorem Bundle.HeldBy.reference {id : Nat} {nsid key : String} {b : Bundle} (h : b.HeldBy id nsid)
    {c : CompiledDefinition} (hc : b.definition key = .ok c) :
    (⟨c.nsid, c.key⟩ : Reference) = ⟨nsid, key⟩ :=
  h.faithful.reference hc

/-- A registry with a given number, which holds only what belongs to it. -/
structure Registry.Own (id : Nat) (r : Registry) : Prop where
  number : r.id = id
  held : ∀ nsid b, r.bundles.find? nsid = some b → b.HeldBy id nsid

namespace Registry

variable {env : Surroundings} {id : Nat} {r r' : Registry}

theorem own_of_empty (h : r.bundles = []) : r.Own r.id := by
  refine ⟨rfl, fun nsid b hb => ?_⟩
  rw [h] at hb
  cases hb

theorem heldBy_of_compiled {nsid : String} {d : Document} {b : Bundle} (hid : d.id = nsid)
    (made : r.compiled env nsid d = .ok b) : b.HeldBy r.id nsid := by
  obtain ⟨-, id_eq⟩ := of_compiled made
  have faithful := faithful_of_compiled hid made
  obtain ⟨strict, -, compiled⟩ := Except.bind_eq_ok_iff.mp made
  obtain ⟨-, -, registry, unbound⟩ := Document.of_compile compiled
  exact ⟨id_eq, registry, unbound ▸ faithful⟩

theorem Own.insert (own : r.Own id) {nsid : String} {b : Bundle} (held : b.HeldBy id nsid) :
    Own id { r with bundles := r.bundles.insert nsid b } := by
  refine ⟨own.number, fun other b' hb' => ?_⟩
  rw [Entries.find?_insert] at hb'
  split_ifs at hb' with same
  · obtain rfl := Option.some.inj hb'
    exact same ▸ held
  · exact own.held other b' hb'

theorem Own.change (own : r.Own id) (change : Change env r r') : r'.Own id := by
  cases change with
  | source => exact ⟨own.number, own.held⟩
  | bundle fresh hid made => exact own.insert (own.number ▸ heldBy_of_compiled hid made)

theorem Own.changes (own : r.Own id) (changes : Changes env r r') : r'.Own id := by
  induction changes with
  | refl => exact own
  | tail _ change ih => exact ih.change change

end Registry

/-! ### Workspaces -/

namespace Workspace

variable {α : Type} {w : Workspace}

/-- Each registry stands at its own number and holds what belongs to it, and each bundle that was
not registered stands at its own number. -/
structure Ordered (w : Workspace) : Prop where
  registries : ∀ (id : Nat) (r : Registry), w.registries[id]? = some r → r.Own id
  loose : ∀ (number : Nat) (b : Bundle), w.loose[number]? = some b → b.id = .loose number

/-- What is done keeps a workspace ordered, even where it ends with a fault. -/
def keeping : Check.Congruence Workspace Workspace where
  rel x _ := ∀ w : Workspace, w.Ordered → (x.run w).2.Ordered
  rel_pure _ _ h := h
  rel_throw _ _ h := h
  rel_bind {_ _ x _ _ _} hx hf w :=
    Check.run_bind_relates (fun w w' : Workspace => w.Ordered → w'.Ordered)
      (fun h h' => h' ∘ h) (hx w) hf
  rel_attempt {_ x _} hx w := by
    rw [Check.snd_run_attempt]
    exact hx w

/-- A workspace that is ordered stays so, whatever is done with it. -/
abbrev Keeps (x : Work α) : Prop :=
  keeping.rel x x

theorem keeps_get : Keeps (get : Work Workspace) :=
  fun _ h => h

theorem keeps_modify {f : Workspace → Workspace} (registries : ∀ w, (f w).registries = w.registries)
    (loose : ∀ w, (f w).loose = w.loose) : Keeps (modify f : Work PUnit) := by
  intro w ordered
  change (f w).Ordered
  exact ⟨registries w ▸ ordered.registries, loose w ▸ ordered.loose⟩

theorem keeps_addRegistry (sources : List Source) (strict : Option Bool) :
    Keeps (addRegistry sources strict) := by
  intro w ordered
  let fresh : Registry := { id := w.registries.length, sources, strict }
  change Ordered { w with registries := w.registries ++ [fresh] }
  refine ⟨fun id r hr => ?_, ordered.loose⟩
  rw [List.getElem?_append] at hr
  split_ifs at hr with earlier
  · exact ordered.registries id r hr
  · obtain ⟨last, rfl⟩ := List.getElem?_eq_some_iff.mp hr
    have place : id = w.registries.length := by
      rw [List.length_singleton] at last
      omega
    subst place
    have own : fresh.Own fresh.id := Registry.own_of_empty rfl
    simpa using own

theorem Ordered.set (ordered : w.Ordered) {id : Nat} {r : Registry} (own : r.Own id) :
    Ordered { w with registries := w.registries.set id r } := by
  refine ⟨fun other r' hr' => ?_, ordered.loose⟩
  rw [List.getElem?_set] at hr'
  split_ifs at hr' with same bound
  · obtain rfl := Option.some.inj hr'
    exact same ▸ own
  · exact ordered.registries other r' hr'

/-- What is done with a registry keeps the workspace ordered if it changes the registry step by
step. -/
theorem keeps_within (id : Nat) {action : Surroundings → Action α}
    (h : ∀ env (s : Store), Registry.Changes env s.registry ((action env).run s).2.registry) :
    Keeps (within id action) := by
  intro w ordered
  rw [run_within]
  cases held : w.registries[id]? with
  | none => exact ordered
  | some r =>
    have set := ordered.set
      ((ordered.registries id r held).changes (h w.surroundings { registry := r }))
    exact ⟨set.registries, set.loose⟩

theorem keeps_sharedRegistry : Keeps sharedRegistry := by
  refine keeping.rel_bind keeps_get fun w => ?_
  cases w.shared with
  | some id => exact keeping.rel_pure id
  | none =>
    refine keeping.rel_bind (keeping.rel_lift _) fun config => ?_
    refine keeping.rel_bind (keeps_addRegistry _ _) fun id => ?_
    exact keeping.rel_bind (keeps_modify (fun _ => rfl) fun _ => rfl) fun _ => keeping.rel_pure id

/-- A bundle that was compiled for a registry is known by the identity that it was compiled for. -/
theorem id_of_compile {id : Nat} {bundle : BundleId} {strict : Option Bool} {d : Document}
    {b : Bundle} (h : ((within id (Registry.compile · bundle strict d)).run w).1 = .ok b) :
    b.id = bundle := by
  rw [run_within] at h
  cases held : w.registries[id]? with
  | none =>
    rw [held] at h
    cases h
  | some r =>
    rw [held] at h
    have outcome := (Registry.run_compile w.surroundings bundle strict d { registry := r }).1
    obtain ⟨decided, -, compiled⟩ := Except.bind_eq_ok_iff.mp (outcome.symm.trans h)
    obtain ⟨definitions, -, made⟩ := Traced.outcome_bind_eq_ok_iff.mp compiled
    rw [← Except.ok.inj made]

theorem loose_within (id : Nat) (action : Surroundings → Action α) :
    ((within id action).run w).2.loose = w.loose := by
  rw [run_within]
  cases w.registries[id]? <;> rfl

theorem keeps_compile (d : Document) (registry : Option Nat) (strict : Option Bool) :
    Keeps (compile d registry strict) := by
  cases registry with
  | none =>
    refine keeping.rel_bind (keeps_addRegistry _ _) fun id => ?_
    exact keeps_within id fun env s => Registry.changes_register d s
  | some id =>
    intro w ordered
    let made := within id (Registry.compile · (.loose w.loose.length) strict d)
    have kept : (made.run w).2.Ordered := by
      refine keeps_within id (fun env s => ?_) w ordered
      rw [(Registry.run_compile env _ strict d s).2]
    have loose : (made.run w).2.loose = w.loose := loose_within id _
    have numbered (b : Bundle) : (made.run w).1 = .ok b → b.id = .loose w.loose.length :=
      id_of_compile
    rw [run_compile_some]
    generalize made.run w = result at kept loose numbered ⊢
    rcases result with ⟨e | b, w'⟩
    · exact kept
    · refine ⟨kept.registries, fun number b' hb' => ?_⟩
      dsimp only at hb' loose
      rw [List.getElem?_append, loose] at hb'
      split_ifs at hb' with earlier
      · exact ordered.loose number b' hb'
      · obtain ⟨last, rfl⟩ := List.getElem?_eq_some_iff.mp hb'
        have place : number = w.loose.length := by
          rw [List.length_singleton] at last
          omega
        simp [numbered b rfl, place]

theorem follows (id : Nat) :
    Check.Follows (fun target => within id (Registry.definition · target)) (follow id) :=
  ⟨fun _ _ _ => rfl, fun _ _ _ _ => rfl⟩

theorem keeps_follow (id steps : Nat) (target : Reference) (v : Value) (path : Path) :
    Keeps (follow id steps target v path) := by
  have found (t : Reference) : Keeps (within id (Registry.definition · t)) :=
    keeps_within id fun _ => Registry.changes_definition t
  exact keeping.rel_follow (follows id) (follows id) found steps target v path

theorem keeps_followIn (registry : Option Nat) (target : Reference) (v : Value) (path : Path) :
    Keeps (followIn registry target v path) := by
  have chosen : Keeps (orShared registry) := by
    cases registry with
    | some id => exact keeping.rel_pure id
    | none => exact keeps_sharedRegistry
  refine keeping.rel_bind chosen fun id => ?_
  refine keeping.rel_bind (keeps_within id fun env s => .refl) fun steps => ?_
  exact keeps_follow id steps target v path

theorem keeps_validate (registry : Option Nat) (s : Schema) (v : Value) :
    Keeps (validate registry s v) :=
  keeping.rel_attempt (keeping.rel_checkWith_of_rel (keeps_followIn registry) s v [])

/-! ### Classes that are bound -/

/-- The bundle with a given identity, if there is one. -/
def bundle? (w : Workspace) : BundleId → Option Bundle
  | .registered registry nsid => w.registries[registry]?.bind fun r => r.bundles.find? nsid
  | .loose number => w.loose[number]?

theorem run_bundle (id : BundleId) (w : Workspace) :
    (bundle id).run w = (match w.bundle? id with
      | some b => .ok b
      | none => .error .outOfRange, w) := by
  have read : (get : Work Workspace).run w = (.ok w, w) := rfl
  rw [bundle, Check.run_bind, read]
  change ExceptT.run (match w.bundle? id with
    | some b => (pure b : Work Bundle)
    | none => throw .outOfRange) w = _
  cases w.bundle? id <;> rfl

/-- Classes may be bound to the keys of a bundle at its place. -/
theorem ordered_replaceBundle (ordered : w.Ordered) {id : BundleId} {b : Bundle}
    (found : w.bundle? id = some b) (bound : Entries Binding) :
    ((replaceBundle { b with bound }).run w).2.Ordered := by
  cases id with
  | registered registry nsid =>
    obtain ⟨r, held, hb⟩ := Option.bind_eq_some_iff.mp found
    obtain ⟨id_eq, home, faithful⟩ := (ordered.registries registry r held).held nsid b hb
    have belongs : Bundle.HeldBy registry nsid { b with bound } := ⟨id_eq, home, faithful⟩
    have run : ((replaceBundle { b with bound }).run w).2 =
        { w with registries := w.registries.modify registry fun r =>
          { r with bundles := r.bundles.insert nsid { b with bound } } } := by
      simp only [Workspace.replaceBundle, id_eq]
      rfl
    rw [run]
    refine ⟨fun other r' hr' => ?_, ordered.loose⟩
    rw [List.getElem?_modify] at hr'
    obtain ⟨r, held, rfl⟩ := Option.map_eq_some_iff.mp hr'
    have own := ordered.registries other r held
    split_ifs with same
    · exact own.insert (same ▸ belongs)
    · exact own
  | loose number =>
    have id_eq := ordered.loose number b found
    have run : ((replaceBundle { b with bound }).run w).2 =
        { w with loose := w.loose.set number { b with bound } } := by
      simp only [Workspace.replaceBundle, id_eq]
      rfl
    rw [run]
    refine ⟨ordered.registries, fun other b' hb' => ?_⟩
    rw [List.getElem?_set] at hb'
    split_ifs at hb' with same inside
    · obtain rfl := Option.some.inj hb'
      rw [id_eq, same]
    · exact ordered.loose other b' hb'

theorem exists_of_bind {b b' : Bundle} {key : String} {t : RecordType} {registry : Nat}
    (h : b.bind key t registry = .ok b') : ∃ bound, b' = { b with bound } := by
  obtain ⟨c, -, h⟩ := Except.bind_eq_ok_iff.mp h
  split_ifs at h
  exact ⟨_, (Except.ok.inj h).symm⟩

/-- The class of one bundle may be bound to a key of another one. -/
theorem keeps_bindClass (id : BundleId) (key : String) (donor : Bundle) (donorKey name : String) :
    Keeps (do
      let b ← bundle id
      bindClass b key donor donorKey name) := by
  intro w ordered
  rw [Check.run_bind, run_bundle]
  cases found : w.bundle? id with
  | none => exact ordered
  | some b =>
    dsimp only
    rw [bindClass]
    cases donor.definition donorKey with
    | error e => exact ordered
    | ok definition =>
      cases donor.binding? donorKey with
      | none => exact ordered
      | some binding =>
        cases changed : b.bind key { binding.recordType with name } binding.registry with
        | error e =>
          simp only [changed]
          exact ordered
        | ok b' =>
          obtain ⟨bound, rfl⟩ := exists_of_bind changed
          simp only [changed]
          exact ordered_replaceBundle ordered found bound

/-! ### Deeds -/

/-- Something that is done in a workspace. -/
inductive Deed
  | addRegistry (sources : List Source) (strict : Option Bool)
  | share
  | setEnvironment (environment : Entries String)
  | setFiles (files : FileSystem)
  | within (id : Nat) (call : Registry.Call)
  | compile (d : Document) (registry : Option Nat) (strict : Option Bool)
  | validate (registry : Option Nat) (s : Schema) (v : Value)
  | read (b : Bundle) (key : String) (v : Value)
  | readRecord (b : Bundle) (key : String) (v : Value)
  | bindClass (id : BundleId) (key : String) (donor : Bundle) (donorKey name : String)
  | writeModule (b : Bundle) (directory : FilePath)

/-- What a deed does, apart from its result. -/
def Deed.perform : Deed → Work Unit
  | .addRegistry sources strict => do let _ ← Workspace.addRegistry sources strict
  | .share => do let _ ← sharedRegistry
  | .setEnvironment environment => Workspace.setEnvironment environment
  | .setFiles files => modify fun w => { w with surroundings := { w.surroundings with files } }
  | .within id call => Workspace.within id fun env => call.perform env
  | .compile d registry strict => do let _ ← Workspace.compile d registry strict
  | .validate registry s v => do let _ ← Workspace.validate registry s v
  | .read b key v => do let _ ← Workspace.read b key v
  | .readRecord b key v => do let _ ← Workspace.readRecord b key v
  | .bindClass id key donor donorKey name => do
    let b ← bundle id
    let _ ← Workspace.bindClass b key donor donorKey name
  | .writeModule b directory => do let _ ← Workspace.writeModule b directory

/-- The workspace after deeds, each of which may end with a fault. -/
def after (deeds : List Deed) (w : Workspace) : Workspace :=
  deeds.foldl (fun w deed => (deed.perform.run w).2) w

theorem keeps_discard {x : Work α} (h : Keeps x) :
    Keeps (do
      let _ ← x) :=
  keeping.rel_bind h fun _ => keeping.rel_pure _

theorem keeps_writeModule (b : Bundle) (directory : FilePath) :
    Keeps (writeModule b directory) := by
  refine keeping.rel_bind (keeping.rel_lift _) fun path => ?_
  refine keeping.rel_bind keeps_get fun w => ?_
  refine keeping.rel_bind (keeping.rel_lift _) fun files => ?_
  exact keeping.rel_bind (keeps_modify (fun _ => rfl) fun _ => rfl) fun _ => keeping.rel_pure path

/-- A deed keeps a workspace ordered. -/
theorem keeps_perform (deed : Deed) : Keeps deed.perform := by
  rw [Deed.perform.eq_def]
  cases deed with
  | addRegistry sources strict => exact keeps_discard (keeps_addRegistry sources strict)
  | share => exact keeps_discard keeps_sharedRegistry
  | setEnvironment | setFiles => exact keeps_modify (fun _ => rfl) fun _ => rfl
  | within id call => exact keeps_within id fun env s => Registry.changes_perform call s
  | compile d registry strict => exact keeps_discard (keeps_compile d registry strict)
  | validate registry s v => exact keeps_discard (keeps_validate registry s v)
  | read b key v => exact keeps_discard (keeps_within _ fun env s => b.changes_read key v s)
  | readRecord b key v =>
    exact keeps_discard (keeps_within _ fun env s => b.changes_readRecord key v s)
  | bindClass id key donor donorKey name =>
    simpa only [bind_assoc] using keeps_discard (keeps_bindClass id key donor donorKey name)
  | writeModule b directory => exact keeps_discard (keeps_writeModule b directory)

/-- **Registries stay at their places.** Whatever is done in a workspace that began with nothing, it
is ordered. -/
theorem ordered_after (registries : w.registries = []) (loose : w.loose = []) (deeds : List Deed) :
    (after deeds w).Ordered := by
  have start : w.Ordered := by
    constructor
    · simp [registries]
    · simp [loose]
  clear registries loose
  induction deeds generalizing w with
  | nil => exact start
  | cons deed rest ih => exact ih (keeps_perform deed w start)

end Workspace

end Lexicon
