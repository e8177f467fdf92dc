import Lexicon.Proofs.Document.Reading
import Lexicon.Proofs.Registry.Loading

/-!
# Sound registries

What a registry holds under an identifier is what the document of that identifier compiles to, and
the classes that were bound to its keys differ from the compiled ones at most in their names. Main
statements: an empty registry is sound, and every call keeps a registry sound.
-/

namespace Lexicon

/-- A bundle of an identifier that is what its document compiles to. A class that was bound to a key
differs from the compiled one at most in its name. -/
structure Bundle.Faithful (nsid : String) (b : Bundle) : Prop where
  id_eq : b.document.id = nsid
  compiled : ∃ strict, (b.document.compileAll strict).outcome = .ok b.definitions
  bound : ∀ key binding, b.bound.find? key = some binding → ∃ c t,
    b.definitions.find? key = some c ∧ c.recordType = some t ∧
      binding.recordType = { t with name := binding.recordType.name }

/-- Every bundle of a registry is faithful to its document. -/
def Registry.Sound (r : Registry) : Prop :=
  ∀ nsid b, r.bundles.find? nsid = some b → b.Faithful nsid

theorem Document.of_compile {d : Document} {id : BundleId} {registry : Nat} {strict : Bool}
    {b : Bundle} (h : (d.compile id registry strict).outcome = .ok b) :
    b.Faithful d.id ∧ b.document = d ∧ b.registry = registry ∧ b.bound = [] := by
  obtain ⟨definitions, compiled, h⟩ := Traced.outcome_bind_eq_ok_iff.mp h
  obtain rfl := Except.ok.inj h
  exact ⟨⟨rfl, ⟨strict, compiled⟩, fun _ _ hbound => by simp [Entries.find?] at hbound⟩, rfl, rfl,
    rfl⟩

theorem Bundle.definition_eq_ok_iff {b : Bundle} {key : String} {c : CompiledDefinition} :
    b.definition key = .ok c ↔ b.definitions.find? key = some c := by
  unfold Bundle.definition
  cases b.definitions.find? key <;> simp

/-- A compiled definition of a faithful bundle is made from a component of its document. -/
theorem Bundle.Faithful.component {nsid key : String} {b : Bundle} (h : b.Faithful nsid)
    {c : CompiledDefinition} (hc : b.definitions.find? key = some c) :
    ∃ strict component, (key, component) ∈ b.document.components ∧
      component.Compiles nsid key strict c := by
  obtain ⟨strict, hcompiled⟩ := h.compiled
  obtain ⟨made, _⟩ := Document.compiles_of_outcome hcompiled
  obtain ⟨⟨k, component⟩, hmem, hkey, hc⟩ := made.exists_left (Entries.mem_of_find?_eq_some hc)
  obtain rfl : key = k := hkey
  exact ⟨strict, component, hmem, h.id_eq ▸ hc⟩

/-- A class of a compiled document is that of a compiled definition, which is made from a component
of the document. -/
theorem Bundle.origin_of_binding? {d : Document} {id : BundleId} {registry : Nat} {strict : Bool}
    {b : Bundle} (compiled : (d.compile id registry strict).outcome = .ok b) {key : String}
    {binding : Binding} (bound : b.binding? key = some binding) :
    ∃ c strict component, b.definitions.find? key = some c ∧
      c.recordType = some binding.recordType ∧ (key, component) ∈ d.components ∧
      component.Compiles d.id key strict c := by
  obtain ⟨faithful, rfl, -, unbound⟩ := Document.of_compile compiled
  rw [binding?, unbound] at bound
  obtain ⟨c, found, recordType⟩ := Option.bind_eq_some_iff.mp bound
  obtain ⟨t, ht, rfl⟩ := Option.map_eq_some_iff.mp recordType
  obtain ⟨strict, component, declared, compiles⟩ := faithful.component found
  exact ⟨c, strict, component, found, ht, declared, compiles⟩

/-! ### What is loaded -/

private theorem id_of_loadFirst {files : FileSystem} {nsid : String} {paths : List FilePath}
    {d : Document} (h : Source.loadFirst files nsid paths = .ok (some d)) : d.id = nsid := by
  induction paths with
  | nil => simp [Source.loadFirst] at h
  | cons path rest ih =>
    rw [Source.loadFirst] at h
    obtain ⟨isFile, _, h⟩ := Except.bind_eq_ok_iff.mp h
    split_ifs at h
    · obtain ⟨contents, _, h⟩ := Except.bind_eq_ok_iff.mp h
      obtain ⟨document, _, h⟩ := Except.bind_eq_ok_iff.mp h
      split_ifs at h with hid
      · obtain rfl := Option.some.inj (Except.ok.inj h)
        exact hid
    · exact ih h

/-- The bundled documents stand under their identifiers. -/
private theorem id_of_bundled : ∀ e ∈ Bundled.all,
    ∃ es, e.2 = .object es ∧ (Entries.getValue es "id").str? = some e.1 := by
  simp only [Bundled.all, List.forall_mem_cons]
  exact ⟨⟨_, rfl, rfl⟩, ⟨_, rfl, rfl⟩, ⟨_, rfl, rfl⟩, ⟨_, rfl, rfl⟩, ⟨_, rfl, rfl⟩,
    fun _ h => absurd h List.not_mem_nil⟩

/-- A source gives a document only under its own identifier. -/
theorem id_of_load {env : Surroundings} {nsid : String} {source : Source} {d : Document}
    (h : source.load env nsid = .ok (some d)) : d.id = nsid := by
  cases source with
  | directory root =>
    simp only [Source.load] at h
    split_ifs at h
    · exact id_of_loadFirst h
    · simp at h
  | bundled =>
    simp only [Source.load] at h
    split at h
    · next v hv =>
      obtain ⟨document, hdocument, h⟩ := Except.bind_eq_ok_iff.mp h
      obtain rfl := Option.some.inj (Except.ok.inj h)
      obtain ⟨es, rfl, hid⟩ := id_of_bundled _ (Entries.mem_of_find?_eq_some hv)
      obtain ⟨_, _, read⟩ := Document.exists_readFrom_of_ofEntries hdocument
      rw [read.id, hid, Option.getD_some]
    · simp at h
  | documents ds =>
    have found : ds.find? (·.id == nsid) = some d := Except.ok.inj h
    simpa using List.find?_some found

namespace Registry

variable {env : Surroundings} {r : Registry}

theorem faithful_of_compiled {nsid : String} {d : Document} {b : Bundle} (hid : d.id = nsid)
    (h : r.compiled env nsid d = .ok b) : b.Faithful nsid := by
  rw [compiled_eq] at h
  obtain ⟨strict, _, h⟩ := Except.bind_eq_ok_iff.mp h
  obtain ⟨definitions, hdefinitions, h⟩ := Except.bind_eq_ok_iff.mp h
  obtain rfl := Except.ok.inj h
  exact ⟨hid, ⟨strict, hdefinitions⟩, fun _ _ hbound => by simp [Entries.find?] at hbound⟩

/-- What the sources give for an identifier is made of a document with that identifier. -/
theorem exists_of_loaded {nsid : String} {sources : List Source} {b : Bundle}
    (h : r.loaded env nsid sources = .ok b) :
    ∃ d : Document, d.id = nsid ∧ r.compiled env nsid d = .ok b := by
  induction sources with
  | nil => simp [loaded] at h
  | cons source rest ih =>
    rw [loaded] at h
    obtain ⟨document, hload, h⟩ := Except.bind_eq_ok_iff.mp h
    cases document with
    | none => exact ih h
    | some d => exact ⟨d, id_of_load hload, h⟩

private theorem faithful_of_loaded {nsid : String} {sources : List Source} {b : Bundle}
    (h : r.loaded env nsid sources = .ok b) : b.Faithful nsid := by
  obtain ⟨d, hid, made⟩ := exists_of_loaded h
  exact faithful_of_compiled hid made

/-- A registry that holds nothing and has documents as its only source finds these. -/
theorem document_of_found {ds : List Document} (hbundles : r.bundles = [])
    (hsources : r.sources = [.documents ds]) {nsid : String} {b : Bundle}
    (h : r.found env nsid = .ok b) : ds.find? (·.id == nsid) = some b.document := by
  simp only [found, hbundles, hsources, Entries.find?, loaded, Source.load, Except.ok_bind] at h
  cases hd : ds.find? (·.id == nsid) with
  | none => simp [hd] at h
  | some d =>
    simp only [hd] at h
    rw [compiled_eq] at h
    obtain ⟨_, _, h⟩ := Except.bind_eq_ok_iff.mp h
    obtain ⟨_, _, h⟩ := Except.bind_eq_ok_iff.mp h
    rw [← Except.ok.inj h]

/-- Whatever a sound registry finds under an identifier is faithful to its document. -/
theorem Sound.found (sound : r.Sound) {nsid : String} {b : Bundle}
    (h : r.found env nsid = .ok b) : b.Faithful nsid := by
  unfold Registry.found at h
  split at h
  · next held =>
    obtain rfl := Except.ok.inj h
    exact sound nsid _ held
  · exact faithful_of_loaded h

/-! ### Calls keep registries sound -/

theorem sound_of_empty (h : r.bundles = []) : r.Sound := by
  intro nsid b hb
  simp [h, Entries.find?] at hb

theorem Sound.of_found (sound : r.Sound) {r' : Registry}
    (same : r'.found env = r.found env) : r'.Sound := by
  intro nsid b hb
  have held : r'.found env nsid = .ok b := by
    unfold Registry.found
    rw [hb]
  rw [same] at held
  exact sound.found held

private theorem Sound.register {s : Store} (sound : s.registry.Sound) (d : Document) :
    (((Call.register d).perform env).run s).2.registry.Sound := by
  rw [Call.perform, run_discard]
  simp only [Registry.register, Check.run_bind, Action.run_registry]
  split
  · split_ifs <;> exact sound
  · rw [(run_add env d.id d s).2]
    cases made : s.registry.compiled env d.id d with
    | error e => exact sound
    | ok b =>
      intro nsid b' hb'
      simp only [keep, Entries.find?_insert] at hb'
      split_ifs at hb' with hid
      · obtain rfl := Option.some.inj hb'
        exact faithful_of_compiled hid (hid ▸ made)
      · exact sound nsid b' hb'

theorem Sound.perform {s : Store} (sound : s.registry.Sound) (call : Call) :
    ((call.perform env).run s).2.registry.Sound := by
  cases hlookup : call.isLookup with
  | true => exact sound.of_found (found_of_lookup env hlookup s)
  | false =>
    cases call with
    | register d => exact sound.register d
    | addSource source =>
      rw [Call.perform, run_discard]
      exact sound
    | _ => simp [Call.isLookup] at hlookup

/-- No sequence of calls makes a sound registry unsound. -/
theorem Sound.after (calls : List (Surroundings × Call)) {s : Store} (sound : s.registry.Sound) :
    (Registry.after calls s).registry.Sound := by
  induction calls generalizing s with
  | nil => exact sound
  | cons call rest ih => exact ih (sound.perform call.2)

end Registry

end Lexicon
