import Lexicon.Proofs.Compile.Strictness
import Lexicon.Proofs.Record.Accepted
import Lexicon.Proofs.Record.Making
import Lexicon.Workspace

/-!
# Values that are refused

A bundle checks a value by its own definitions. The class of a key looks its definition up in the
registry by name when it reads a value, so the two agree as far as the registry answers with the
document that the bundle was made from. Main statement: wherever it does, now or later, reading
raises a failure exactly if the check found it; where the registry has no such document, reading
ends with that.
-/

namespace Lexicon

/-! ### Actions that find no failure -/

/-- Never ends with a failure of a value. -/
def Action.Quiet {α : Type} (x : Action α) : Prop :=
  ∀ s : Store, NoFailure (x.run s).1

/-- Finding no failure. -/
def Action.quiet (env : Surroundings) : Action.Modality env where
  holds := Action.Quiet
  lift h _ := h
  bind {_ _ x f} hx hf s := by
    have first := hx s
    rw [Check.run_bind]
    generalize x.run s = result at first ⊢
    rcases result with ⟨e | a, s'⟩
    · exact fun f h => first f (congrArg Except.error (Except.error.inj h))
    · exact hf a s'
  bundle nsid s := by
    rw [(Registry.run_bundle env nsid s).1]
    exact Registry.noFailure_found env s.registry nsid

variable {env : Surroundings}

/-! ### Bundles of one document -/

section Bundles

variable {s : Store} {nsid key : String} {b b' : Bundle} {c : CompiledDefinition}

/-- Bundles of one document have the same definitions. -/
theorem Bundle.Faithful.definitions_eq (faithful : b.Faithful nsid) (faithful' : b'.Faithful nsid)
    (same : b'.document = b.document) : b'.definitions = b.definitions := by
  obtain ⟨_, compiled⟩ := faithful.compiled
  obtain ⟨_, compiled'⟩ := faithful'.compiled
  exact Document.compileAll_unique compiled (same ▸ compiled')

/-- Where a registry answers with the document of a bundle, the classes of the bundle raise exactly
the failures that the bundle finds. -/
theorem Bundle.Faithful.readRecord_eq_invalid_iff (faithful : b.Faithful nsid)
    (sound : s.registry.Sound) (hb' : s.registry.found env nsid = .ok b')
    (same : b'.document = b.document) {binding : Binding}
    (hbinding : b.binding? key = some binding) (v : Value) (f : Failure) :
    ((b.readRecord env key v).run s).1 = .error (.invalid f) ↔
      ((b.verdict env key v).run s).1 = .ok (.error f) := by
  obtain ⟨c, _, hc, _⟩ := faithful.binding hbinding
  have meaning : s.registry.meaning env ⟨nsid, key⟩ = .ok c :=
    Registry.meaning_eq_ok_iff.mpr
      ⟨b', hb', faithful.definitions_eq (sound.found hb') same ▸ hc⟩
  obtain ⟨s', read⟩ := faithful.exists_run_readRecord env hbinding v s
  rw [read, meaning, Except.ok_bind, Bundle.fst_run_verdict hc]
  cases s.registry.normalized env c.schema v [] with
  | error e => cases e <;> simp [Registry.verdictOf]
  | ok m =>
    have quiet : (binding.recordType.ofChecked env (b.classId key binding) c.type m).Quiet :=
      (Action.quiet env).ofChecked _ _ _ m
    simp [Registry.verdictOf, quiet s' f]

/-- Where a registry does not answer for the identifier of a bundle, reading by its classes ends
with that. -/
theorem Bundle.Faithful.readRecord_of_found_error (faithful : b.Faithful nsid) {e : Fault}
    (he : s.registry.found env nsid = .error e) {binding : Binding}
    (hbinding : b.binding? key = some binding) (v : Value) :
    ((b.readRecord env key v).run s).1 = .error e := by
  obtain ⟨s', read⟩ := faithful.exists_run_readRecord env hbinding v s
  have missing : s.registry.meaning env ⟨nsid, key⟩ = .error e := by
    rw [Registry.meaning, Lookup.ofBundles, he, Except.error_bind]
  rw [read, missing, Except.error_bind]

theorem Bundle.run_verdict (hc : b.definitions.find? key = some c)
    (env : Surroundings) (v : Value) (s : Store) :
    (b.verdict env key v).run s = (Registry.verdict env c.schema v).run s := by
  rw [Bundle.verdict, Bundle.definition_eq_ok_iff.mpr hc, Check.run_bind, Action.run_lift]

/-- After a verdict was given and any further calls were made, a registry is sound if it was, holds
what it held, and the same verdict is given again. -/
theorem Bundle.verdict_later (hc : b.definitions.find? key = some c) (sound : s.registry.Sound)
    {v : Value} {verdict : Schema.Verdict} (checked : ((b.verdict env key v).run s).1 = .ok verdict)
    {calls : List (Surroundings × Registry.Call)} {s' : Store}
    (later : s' = Registry.after calls ((b.verdict env key v).run s).2) (env' : Surroundings) :
    s'.registry.Sound ∧ s.registry.Grows s'.registry ∧
      ((b.verdict env' key v).run s').1 = .ok verdict := by
  rw [Bundle.run_verdict hc] at checked later ⊢
  have further := Registry.grows_after calls ((Registry.verdict env c.schema v).run s).2
  rw [← later] at further
  refine ⟨later ▸ Registry.Sound.after calls ?_, ?_, ?_⟩
  · exact sound.of_found (Registry.found_of_verdict env c.schema v s)
  · exact (Registry.grows_verdict env c.schema v s).trans further
  · exact Registry.fst_run_verdict_again env env' checked further

end Bundles

/-! ### Bundles that are returned -/

/-- A registry that holds nothing keeps what is registered first. -/
theorem Registry.of_run_register_of_empty {env : Surroundings} {d : Document}
    {s s' : Store} {b : Bundle} (empty : s.registry.bundles = [])
    (h : (Registry.register env d).run s = (.ok b, s')) :
    (b.Faithful d.id ∧ b.document = d ∧ b.registry = s.registry.id ∧ b.bound = []) ∧
      s'.registry.bundles.find? d.id = some b ∧ s'.registry.Sound := by
  have added : (Registry.register env d).run s = (Registry.add env d.id d).run s := by
    simp only [Registry.register, Check.run_bind, Action.run_registry, empty, Entries.find?]
  obtain ⟨outcome, kept⟩ := Registry.run_add env d.id d s
  have sound : (((Registry.Call.register d).perform env).run s).2.registry.Sound :=
    (Registry.sound_of_empty empty).perform _
  rw [Registry.Call.perform, Registry.run_discard, h] at sound
  rw [← added, h] at outcome kept
  rw [← outcome] at kept
  obtain ⟨_, _, made⟩ := Except.bind_eq_ok_iff.mp outcome.symm
  refine ⟨Document.of_compile made, ?_, sound⟩
  rw [kept]
  simp [Registry.keep, Entries.find?_insert]

namespace Workspace

variable {w w' : Workspace}

/-- Something was done with the registry of a number. -/
theorem exists_of_within {α : Type} {id : Nat} {action : Surroundings → Action α} {a : α}
    (h : (within id action).run w = (.ok a, w')) :
    ∃ r s, w.registries[id]? = some r ∧
      (action w.surroundings).run { registry := r } = (.ok a, s) ∧
      w'.registries = w.registries.set id s.registry := by
  rw [run_within] at h
  cases held : w.registries[id]? with
  | none =>
    rw [held] at h
    cases congrArg Prod.fst h
  | some r =>
    rw [held] at h
    obtain ⟨outcome, rfl⟩ := Prod.mk.inj h
    exact ⟨r, _, rfl, Prod.ext outcome rfl, rfl⟩

/-- What is known of a bundle that was returned for a document: it is what the document compiles to,
no class was bound to it, and the registry that was set up for it alone holds it. -/
theorem of_compile {d : Document} {registry : Option Nat} {strict : Option Bool} {b : Bundle}
    (sound : ∀ r ∈ w.registries, r.Sound)
    (h : (compile d registry strict).run w = (.ok b, w')) :
    b.Faithful d.id ∧ b.document = d ∧ b.bound = [] ∧ (∀ r ∈ w'.registries, r.Sound) ∧
      (registry = none → ∀ r, w'.registries[b.registry]? = some r →
        r.bundles.find? d.id = some b) := by
  cases registry with
  | some number =>
    rw [run_compile_some] at h
    generalize done : (within number _).run w = result at h
    obtain ⟨e | b₁, w₁⟩ := result
    · cases congrArg Prod.fst h
    · obtain rfl : b₁ = b := Except.ok.inj (congrArg Prod.fst h)
      obtain ⟨r, s, held, compiled, registries⟩ := exists_of_within done
      obtain ⟨outcome, unchanged⟩ :=
        Registry.run_compile w.surroundings (.loose w.loose.length) strict d ⟨r, []⟩
      rw [compiled] at outcome unchanged
      obtain ⟨decided, -, outcome⟩ := Except.bind_eq_ok_iff.mp outcome.symm
      obtain ⟨faithful, document, -, bound⟩ := Document.of_compile outcome
      have same : w'.registries = w.registries := by
        rw [← congrArg (·.2.registries) h]
        change w₁.registries = _
        obtain ⟨hnumber, rfl⟩ := List.getElem?_eq_some_iff.mp held
        rw [registries, unchanged, List.set_getElem_self hnumber]
      exact ⟨faithful, document, bound, same ▸ sound, nofun⟩
  | none =>
    let fresh : Registry := { id := w.registries.length, sources := [], strict }
    have set_up : (addRegistry [] strict).run w =
        (.ok w.registries.length, { w with registries := w.registries ++ [fresh] }) := rfl
    rw [compile, Check.run_bind, set_up] at h
    obtain ⟨r, s, held, registered, registries⟩ := exists_of_within h
    obtain rfl : fresh = r := Option.some.inj (List.getElem?_concat_length.symm.trans held)
    obtain ⟨⟨faithful, document, number, bound⟩, kept, sound'⟩ :=
      Registry.of_run_register_of_empty rfl registered
    refine ⟨faithful, document, bound, fun r hr => ?_, fun _ r hr => ?_⟩
    · rw [registries] at hr
      rcases List.mem_or_eq_of_mem_set hr with hr | rfl
      · rcases List.mem_append.mp hr with hr | hr
        · exact sound r hr
        · exact List.mem_singleton.mp hr ▸ Registry.sound_of_empty rfl
      · exact sound'
    · have last : w'.registries[b.registry]? = some s.registry := by
        rw [registries, number]
        simp [fresh]
      obtain rfl := Option.some.inj (last.symm.trans hr)
      exact kept

/-- A document with a note that has a text with the given options. -/
def textDocument (options : Entries Value) : Document where
  id := "com.example.text"
  definitions := [("main", .object {
    properties := [("text", { type := .str "string", options })] })]
  version := .int 1
  revision := .null
  description := .null
  source := .null

end Workspace

end Lexicon
