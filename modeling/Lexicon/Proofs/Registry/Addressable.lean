import Lexicon.Proofs.Identifier.Reference
import Lexicon.Proofs.Registry.WriteOnce

/-!
# Names of definitions

Each compiled definition has a name, the shortest text of a reference to it, and a registry that
holds the document answers this name with the definition; unless references cannot hold the key of
the definition, since a document may define anything under any key. Main statement: once a document
is registered, the name of a definition of its bundle leads back to the definition exactly where its
key is one that references can hold, as the main key and the keys of the parts of calls are.
-/

namespace Lexicon

/-- A compiled definition knows its document and its key. -/
theorem Bundle.Faithful.reference {nsid key : String} {b : Bundle} (h : b.Faithful nsid)
    {c : CompiledDefinition} (hc : b.definition key = .ok c) :
    (⟨c.nsid, c.key⟩ : Reference) = ⟨nsid, key⟩ := by
  obtain ⟨strict, component, -, compiles⟩ := h.component (Bundle.definition_eq_ok_iff.mp hc)
  rw [compiles.nsid_eq, compiles.key_eq]

namespace Registry

variable {env : Surroundings} {s s' : Store} {d : Document} {b : Bundle} {key : String}
  {c : CompiledDefinition}

/-- A document that was registered is held with the bundle that was answered, which is faithful. -/
theorem held_of_register (sound : s.registry.Sound)
    (registered : (register env d).run s = (.ok b, s')) :
    s'.registry.bundles.find? d.id = some b ∧ s'.registry.Sound := by
  have sound' : s'.registry.Sound := by
    have performed : (((Call.register d).perform env).run s).2.registry.Sound :=
      sound.perform (.register d)
    rwa [Call.perform, run_discard, registered] at performed
  refine ⟨?_, sound'⟩
  simp only [register, Check.run_bind, Action.run_registry] at registered
  split at registered
  · next b' held =>
    split_ifs at registered
    · obtain ⟨hb, rfl⟩ := Prod.mk.inj registered
      rw [held, Except.ok.inj hb]
    · cases (Prod.mk.inj registered).1
  · obtain ⟨outcome, registry⟩ := run_add env d.id d s
    rw [registered] at outcome registry
    rw [registry, ← outcome]
    simp [keep, Entries.find?_insert]

/-- The bundle that is made when a document is first registered is of this document. -/
theorem document_of_register (unheld : s.registry.bundles.find? d.id = none)
    (registered : (register env d).run s = (.ok b, s')) : b.document = d := by
  have added : (register env d).run s = (add env d.id d).run s := by
    simp [register, Check.run_bind, unheld]
  have made := (run_add env d.id d s).1
  rw [← added, registered] at made
  exact (of_compiled made.symm).1

/-- A document is answered with a bundle of it, or with the one of an equal document. -/
theorem document_or_same_of_register (registered : (register env d).run s = (.ok b, s')) :
    b.document = d ∨ b.document.same d = true := by
  cases held : s.registry.bundles.find? d.id with
  | none => exact .inl (document_of_register held registered)
  | some b' =>
    cases same : b'.document.same d with
    | true =>
      rw [run_register_of_same held same] at registered
      obtain rfl := Except.ok.inj (Prod.mk.inj registered).1
      exact .inr same
    | false =>
      rw [run_register_of_other held same] at registered
      cases (Prod.mk.inj registered).1

theorem run_definition_of_held {nsid : String} (held : s.registry.bundles.find? nsid = some b) :
    (definition env ⟨nsid, key⟩).run s = (b.definition key, s) := by
  simp [definition, bundle, Check.run_bind, held]

/-- A definition that a text is resolved to is known by the reference that the text is read as. -/
theorem read_of_resolve (sound : s.registry.Sound) {text : String} {base : Option String}
    (h : ((resolve env text base).run s).1 = .ok c) :
    Reference.read text base = .ok ⟨c.nsid, c.key⟩ := by
  simp only [resolve, Check.run_bind, Action.run_lift] at h
  cases hread : Reference.read text base with
  | error e => simp [hread] at h
  | ok target =>
    simp only [hread] at h
    rw [(run_definition env target s).1, Lookup.ofBundles] at h
    obtain ⟨b, hb, hc⟩ := Except.bind_eq_ok_iff.mp h
    rw [(sound.found hb).reference hc]

/-- **Definitions are addressable as far as references reach.** Once a document is registered, and
whatever is done with the registry later, the name of a definition of its bundle is resolved to that
definition exactly if the identifier of the document is one and references can hold the key. A
document that was read has such an identifier, and references can hold the main key and the keys of
the parts of calls; any other name is refused as malformed. -/
theorem resolve_canonicalName (sound : s.registry.Sound)
    (registered : (register env d).run s = (.ok b, s')) (hc : b.definition key = .ok c)
    (calls : List (Surroundings × Call)) (env' : Surroundings) (base : Option String) :
    (((resolve env' c.canonicalName base).run (after calls s')).1 = .ok c ↔
      Nsid.isValid d.id = true ∧ Reference.isFragment key = true) ∧
    (Nsid.isValid d.id = true →
      (resolve env' c.canonicalName base).run (after calls s') =
        (if Reference.isFragment key then .ok c
          else .error (.malformed "lexicon reference" (.str c.canonicalName)), after calls s')) ∧
    (∀ v, Document.ofValue v = .ok d → Nsid.isValid d.id = true) ∧
    (key = mainKey ∨ key ∈ Document.partKeys → Reference.isFragment key = true) := by
  obtain ⟨held, sound'⟩ := held_of_register sound registered
  have known := (sound' _ _ held).reference hc
  have held' := grows_after calls s' _ _ held
  have answered (valid : Nsid.isValid d.id = true) :
      (resolve env' c.canonicalName base).run (after calls s') =
        (if Reference.isFragment key then .ok c
          else .error (.malformed "lexicon reference" (.str c.canonicalName)), after calls s') := by
    simp only [resolve, Check.run_bind, Action.run_lift, CompiledDefinition.canonicalName, known,
      Reference.read_text (r := ⟨d.id, key⟩) valid]
    split_ifs with fragment
    · simp only [run_definition_of_held held', hc]
    · rfl
  refine ⟨⟨fun resolved => ?_, ?_⟩, answered, fun v => ?_, ?_⟩
  · have read := read_of_resolve (sound'.after calls) resolved
    rw [known] at read
    exact Reference.valid_of_read read
  · rintro ⟨valid, fragment⟩
    rw [answered valid, if_pos fragment]
  · exact Document.isValid_of_ofValue
  · have fragments : ∀ k ∈ mainKey :: Document.partKeys, Reference.isFragment k = true := by
      decide +kernel
    intro own
    exact fragments key (List.mem_cons.mpr own)

/-- A call with parameters: the part is resolved by its name. -/
theorem resolve_canonicalName_params :
    let call : Lexicon.Call := ⟨some { properties := [] }, [], .null⟩
    let d : Document :=
      ⟨"com.example.search", [("main", .query call none)], .int 1, .null, .null, .null⟩
    let s : Store := ⟨{ id := 0, sources := [], strict := some false }, []⟩
    ∃ b c s', (register {} d).run s = (.ok b, s') ∧ b.definition "params" = .ok c ∧
      ((resolve {} c.canonicalName none).run s').1 = .ok c := by
  intro call d s
  obtain ⟨c, compiled⟩ : ∃ c,
      (((register {} d).run s).1 >>= fun b => b.definition "params") = .ok c :=
    Except.exists_of_isOk (by decide +kernel)
  rcases registered : (register {} d).run s with ⟨outcome, s'⟩
  rw [registered] at compiled
  obtain ⟨b, rfl, hc⟩ := Except.bind_eq_ok_iff.mp compiled
  refine ⟨b, c, s', rfl, hc, ?_⟩
  have addressed := resolve_canonicalName (sound_of_empty rfl) registered hc [] {} none
  exact addressed.1.mpr ⟨by decide +kernel, addressed.2.2.2 (.inr (by decide))⟩

/-- Nothing keeps a document from defining what no reference can name. -/
theorem not_resolve_canonicalName_factor :
    let v : Value := .object [("lexicon", .int 1), ("id", .str "com.example.thing"),
      ("defs", .object [("2fa", .object [("type", .str "token")])])]
    let s : Store := ⟨{ id := 0, sources := [], strict := some false }, []⟩
    ∃ d b c s', Document.ofValue v = .ok d ∧ (register {} d).run s = (.ok b, s') ∧
      b.definition "2fa" = .ok c ∧
      ((resolve {} c.canonicalName none).run s').1 =
        .error (.malformed "lexicon reference" (.str "com.example.thing#2fa")) := by
  intro v s
  obtain ⟨_, named⟩ : ∃ result, (do
      let d ← Document.ofValue v
      let b ← ((register {} d).run s).1
      let c ← b.definition "2fa"
      if c.canonicalName = "com.example.thing#2fa" then .ok c else .error .wrongType) =
        .ok result :=
    Except.exists_of_isOk (by decide +kernel)
  simp only [Except.bind_eq_ok_iff] at named
  obtain ⟨d, hd, b, hb, c, hc, named⟩ := named
  rcases registered : (register {} d).run s with ⟨outcome, s'⟩
  rw [registered] at hb
  obtain rfl : outcome = .ok b := hb
  refine ⟨d, b, c, s', hd, registered, hc, ?_⟩
  split_ifs at named with hname
  have unread : Reference.read "com.example.thing#2fa" none =
      .error (.malformed "lexicon reference" (.str "com.example.thing#2fa")) :=
    Reference.read_text (r := ⟨"com.example.thing", "2fa"⟩) (by decide +kernel)
  simp only [hname, resolve, Check.run_bind, Action.run_lift, unread]

end Registry

end Lexicon
