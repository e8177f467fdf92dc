import Lexicon.Proofs.Document.Declared
import Lexicon.Proofs.Record.Slots
import Lexicon.Proofs.Registry.Sound

/-!
# Class names of a bundle

The class names of all definitions of a document are compared with each other before anything is
compiled, and the main one keeps clear of the names of parts; no other definition does. Main
statement: the records under two keys of a bundle have classes of one name exactly if one key is
that of a part of a call, and the other that of a definition which takes the class name of the part.
-/

namespace Lexicon

theorem RecordType.name_of_build {name nsid key : String} {rules : List SlotRule}
    {typeName : Option String} {t : RecordType} (h : build name nsid key rules typeName = .ok t) :
    t.name = name := by
  simp only [build] at h
  obtain ⟨_, -, h⟩ := Except.bind_eq_ok_iff.mp h
  split at h
  · obtain ⟨_, -, h⟩ := Except.bind_eq_ok_iff.mp h
    split at h
    · rw [← Except.ok.inj h]
    · cases h
  · cases h

namespace Definition

/-- The keys of the parts of a call; no other definition has parts. -/
def callParts (d : Definition) : List String :=
  match d.call? with
  | some call => (d.parts call).map (·.1)
  | none => []

/-- The class names that a definition gives to its keys: its own name to its own key, and to each
part the name after the part. -/
def classNames (key className : String) (d : Definition) : Entries String :=
  (key, className) :: d.callParts.map fun part => (part, Naming.className part)

/-- A compiled definition has a key, and the records under it, if there are any, a class name. -/
def Named (e : String × String) (c : CompiledDefinition) : Prop :=
  c.key = e.1 ∧ ∀ t, c.recordType = some t → t.name = e.2

theorem named_of_unbound {e : String × String} {c : CompiledDefinition} (key : c.key = e.1)
    (unbound : c.recordType = none) : Named e c := by
  refine ⟨key, fun t ht => ?_⟩
  rw [unbound] at ht
  cases ht

section

variable {nsid key className : String} {strict : Bool}

theorem named_of_compileObject {body : ObjectBody} {typeName : Option String}
    {brand : Entries Field} {description : Value} {c : CompiledDefinition}
    (h : (compileObject nsid key className strict body typeName brand description).outcome =
      .ok c) : Named (key, className) c := by
  obtain ⟨_, recordType, compiles⟩ := objectCompiles_of_outcome h
  refine ⟨compiles.key_eq, fun t ht => ?_⟩
  obtain rfl := Option.some.inj (compiles.recordType_eq.symm.trans ht)
  exact RecordType.name_of_build compiles.build

theorem named_of_compilePart {schema : BodySchema} {description : Value} {c : CompiledDefinition}
    (h : (compilePart nsid key strict schema description).outcome = .ok c) :
    Named (key, Naming.className key) c := by
  cases schema with
  | object body => exact named_of_compileObject h
  | field f =>
    simp only [compilePart, Traced.outcome_bind_eq_ok_iff, Traced.outcome_pure,
      Except.ok.injEq] at h
    obtain ⟨_, -, rfl⟩ := h
    exact named_of_unbound rfl rfl

theorem named_of_compileCall {d : Definition} {call : Call} {cs : List CompiledDefinition}
    (hcall : d.call? = some call)
    (h : (compileCall nsid key className strict d call).outcome = .ok cs) :
    List.Forall₂ Named (d.classNames key className) cs := by
  simp only [compileCall, Traced.outcome_bind_eq_ok_iff, Traced.outcome_pure,
    Traced.outcome_mapM, Traced.outcome_lift, Except.mapM_eq_ok_iff, Except.ok.injEq] at h
  obtain ⟨compiled, hparts, recordType, hbuild, rfl⟩ := h
  rw [classNames, callParts, hcall]
  refine .cons ⟨rfl, ?_⟩ ?_
  · rintro t ⟨⟩
    exact RecordType.name_of_build hbuild
  · rw [List.forall₂_map_left_iff, List.forall₂_map_left_iff]
    exact hparts.imp fun _ _ h => named_of_compilePart h

/-- What a definition compiles to has the keys of the definition, with their class names. -/
theorem named_of_outcome {d : Definition} {cs : List CompiledDefinition}
    (h : (d.compile nsid key className strict).outcome = .ok cs) :
    List.Forall₂ Named (d.classNames key className) cs := by
  cases d with
  | query | procedure | subscription => exact named_of_compileCall rfl h
  | record | object =>
    simp only [compile, Traced.outcome_bind_eq_ok_iff, Traced.outcome_pure, Except.ok.injEq] at h
    obtain ⟨c, hc, rfl⟩ := h
    exact .cons (named_of_compileObject hc) .nil
  | token =>
    simp only [compile, Traced.outcome_pure, Except.ok.injEq] at h
    rw [← h]
    exact .cons (named_of_unbound rfl rfl) .nil
  | field =>
    simp only [compile, Traced.outcome_bind_eq_ok_iff, Traced.outcome_pure, Except.ok.injEq] at h
    obtain ⟨_, -, rfl⟩ := h
    exact .cons (named_of_unbound rfl rfl) .nil

end

/-- Only values of three types are read as calls. -/
theorem type_of_call {ms : Entries Value} {name : String} {d : Definition}
    (type : ms.find? "type" = some (.str name)) (h : ofValue (.object ms) = .ok d)
    (call : d.call? ≠ none) : name ∈ ["query", "procedure", "subscription"] := by
  simp only [ofValue, Value.member, type, Value.entries, Except.ok_bind] at h
  have none_of {made : Definition} (h : Except.ok made = (.ok d : Except Fault Definition))
      (none : made.call? = none) : False :=
    call (Except.ok.inj h ▸ none)
  split at h
  · obtain ⟨_, -, h⟩ := Except.bind_eq_ok_iff.mp h
    obtain ⟨_, -, h⟩ := Except.bind_eq_ok_iff.mp h
    exact (none_of h rfl).elim
  · obtain ⟨_, -, h⟩ := Except.bind_eq_ok_iff.mp h
    exact (none_of h rfl).elim
  · next named => simp [Value.str.inj named]
  · next named => simp [Value.str.inj named]
  · next named => simp [Value.str.inj named]
  · exact (none_of h rfl).elim
  · obtain ⟨_, -, h⟩ := Except.bind_eq_ok_iff.mp h
    exact (none_of h rfl).elim

theorem mem_partKeys_of_callParts {d : Definition} {part : String} (h : part ∈ d.callParts) :
    part ∈ Document.partKeys := by
  unfold callParts at h
  split at h
  · obtain ⟨p, hp, rfl⟩ := List.mem_map.mp h
    exact key_mem_partKeys hp
  · exact absurd h List.not_mem_nil

end Definition

namespace Document

variable {d : Document}

/-! ### Names that are compared -/

private theorem nodup_of_checkClassNames {seen : Entries String} {keys : List String}
    (h : d.checkClassNames seen keys = .ok ()) :
    (keys.map d.classNameOf).Nodup ∧ ∀ key ∈ keys, seen.find? (d.classNameOf key) = none := by
  induction keys generalizing seen with
  | nil => simp
  | cons key rest ih =>
    rw [checkClassNames] at h
    split at h
    · cases h
    · next fresh => exact Entries.nodup_cons_of_fresh fresh (ih h)

theorem nodup_classNameOf (h : d.checkClassNames [] d.keysMainLast = .ok ()) :
    (d.definitions.keys.map d.classNameOf).Nodup := by
  have perm : d.keysMainLast.Perm d.definitions.keys := by
    have split := List.filter_append_perm (· ≠ mainKey) d.definitions.keys
    simpa [keysMainLast] using split
  exact (perm.map d.classNameOf).nodup_iff.mp (nodup_of_checkClassNames h).1

theorem eq_of_className_eq_of_parts {part part' : String} (hp : part ∈ partKeys)
    (hp' : part' ∈ partKeys) (same : Naming.className part = Naming.className part') :
    part = part' := by
  have distinct : (partKeys.map Naming.className).Nodup := by decide
  exact List.inj_on_of_nodup_map distinct hp hp' same

/-- A main definition that is a call takes the class name of no part. -/
theorem mainClassName_ne {main : Definition} (found : d.definitions.find? mainKey = some main)
    (call : main.call?.isSome = true) {part : String} (hp : part ∈ partKeys) :
    d.mainClassName ≠ Naming.className part := by
  rw [mainClassName]
  split_ifs with taken
  · have clear : "Main" ∉ partKeys.map Naming.className := by decide
    exact fun same => clear (List.mem_map.mpr ⟨part, hp, same.symm⟩)
  · intro same
    refine taken ?_
    rw [takenNames, found, same]
    simp only [call, if_true, List.contains_iff_mem]
    exact List.mem_append_right _ (List.mem_map_of_mem hp)

/-! ### Names of all keys -/

/-- The class names of all keys of a document. -/
def classNames (d : Document) : Entries String :=
  d.definitions.flatMap fun e => e.2.classNames e.1 (d.classNameOf e.1)

theorem mem_classNames_iff {key name : String} :
    (key, name) ∈ d.classNames ↔
      (key ∈ d.definitions.keys ∧ name = d.classNameOf key) ∨
        (∃ e ∈ d.definitions, key ∈ e.2.callParts) ∧ name = Naming.className key := by
  simp only [classNames, Definition.classNames, List.mem_flatMap, List.mem_cons, List.mem_map,
    Prod.mk.injEq, Entries.keys]
  constructor
  · rintro ⟨e, he, ⟨rfl, rfl⟩ | ⟨part, hp, rfl, rfl⟩⟩
    · exact .inl ⟨⟨e, he, rfl⟩, rfl⟩
    · exact .inr ⟨⟨e, he, hp⟩, rfl⟩
  · rintro (⟨⟨e, he, rfl⟩, rfl⟩ | ⟨⟨e, he, hp⟩, rfl⟩)
    · exact ⟨e, he, .inl ⟨rfl, rfl⟩⟩
    · exact ⟨e, he, .inr ⟨key, hp, rfl, rfl⟩⟩

/-- A part of a call and a definition that takes the class name of the part. A main definition that
is a call itself never does. -/
structure Clash (d : Document) (part key : String) : Prop where
  ofCall : ∃ e ∈ d.definitions, part ∈ e.2.callParts
  taken : ∃ e ∈ d.definitions, e.1 = key ∧ (key = mainKey → e.2.call? = none)
  name : d.classNameOf key = Naming.className part

theorem clash_of_eq (names : d.checkClassNames [] d.keysMainLast = .ok ()) {part key : String}
    (hp : ∃ e ∈ d.definitions, part ∈ e.2.callParts) (hk : key ∈ d.definitions.keys)
    (same : d.classNameOf key = Naming.className part) : d.Clash part key := by
  obtain ⟨e, he, rfl⟩ := List.mem_map.mp hk
  refine ⟨hp, ⟨e, he, rfl, fun main => ?_⟩, same⟩
  have found : d.definitions.find? mainKey = some e.2 :=
    (Entries.find?_eq_some_iff (nodup_classNameOf names).of_map).mpr (main ▸ he)
  by_contra call
  obtain ⟨_, _, hpart⟩ := hp
  refine mainClassName_ne found (Option.isSome_iff_ne_none.mpr call)
    (Definition.mem_partKeys_of_callParts hpart) ?_
  rw [← same, classNameOf, if_pos main]

/-- Two keys have one class name exactly where a definition takes the name of a part. -/
theorem classNames_eq_iff_clash (names : d.checkClassNames [] d.keysMainLast = .ok ())
    (distinct : d.classNames.keys.Nodup) {k k' name name' : String}
    (hk : (k, name) ∈ d.classNames) (hk' : (k', name') ∈ d.classNames) (ne : k ≠ k') :
    name = name' ↔ d.Clash k k' ∨ d.Clash k' k := by
  have unique {key x y : String} (hx : (key, x) ∈ d.classNames) (hy : (key, y) ∈ d.classNames) :
      x = y := by
    rw [← Entries.find?_eq_some_iff distinct] at hx hy
    exact Option.some.inj (hx.symm.trans hy)
  have of_clash {part key x y : String} (clash : d.Clash part key) (hx : (part, x) ∈ d.classNames)
      (hy : (key, y) ∈ d.classNames) : x = y := by
    obtain ⟨hp, ⟨e, he, rfl, -⟩, same⟩ := clash
    rw [unique hx (mem_classNames_iff.mpr (.inr ⟨hp, rfl⟩)),
      unique hy (mem_classNames_iff.mpr (.inl ⟨List.mem_map_of_mem he, rfl⟩)), same]
  constructor
  · rintro rfl
    rcases mem_classNames_iff.mp hk with ⟨own, rfl⟩ | ⟨part, rfl⟩
    · rcases mem_classNames_iff.mp hk' with ⟨own', same⟩ | ⟨part', same⟩
      · exact absurd (List.inj_on_of_nodup_map (nodup_classNameOf names) own own' same) ne
      · exact .inr (clash_of_eq names part' own same)
    · rcases mem_classNames_iff.mp hk' with ⟨own', same⟩ | ⟨part', same⟩
      · exact .inl (clash_of_eq names part own' same.symm)
      · obtain ⟨_, _, hp⟩ := part
        obtain ⟨_, _, hp'⟩ := part'
        exact absurd (eq_of_className_eq_of_parts (Definition.mem_partKeys_of_callParts hp)
          (Definition.mem_partKeys_of_callParts hp') same) ne
  · rintro (clash | clash)
    · exact of_clash clash hk hk'
    · exact (of_clash clash hk' hk).symm

/-- What a document compiles to has the keys of the document, with their class names. -/
theorem named_of_outcome {strict : Bool} {result : Entries CompiledDefinition}
    (h : (d.compileAll strict).outcome = .ok result) :
    List.Forall₂ (fun e c => c.1 = e.1 ∧ Definition.Named e c.2) d.classNames result := by
  obtain ⟨-, ⟨made, hmade, rfl⟩, -⟩ := compiled_of_outcome h
  rw [List.forall₂_map_right_iff, classNames, List.flatMap_def]
  refine List.rel_flatten (List.forall₂_map_left_iff.mpr (hmade.imp fun e cs h => ?_))
  exact (Definition.named_of_outcome h).imp fun _ _ h => ⟨h.1, h⟩

/-- What a document compiles to has the names of the definitions in their order, each followed by
the keys of its parts. -/
theorem keys_of_outcome {strict : Bool} {result : Entries CompiledDefinition}
    (h : (d.compileAll strict).outcome = .ok result) :
    result.keys = d.definitions.flatMap fun e => e.1 :: e.2.callParts := by
  rw [Entries.keys_eq_of_forall₂ ((named_of_outcome h).imp fun _ _ named => named.1), Entries.keys,
    classNames, List.map_flatMap]
  refine List.flatMap_congr fun e _ => ?_
  rw [Definition.classNames, List.map_cons, List.map_map]
  exact congrArg _ (List.map_id _)

/-- In a document that was read, only the main definition can be a call. -/
theorem key_eq_of_call {v : Value} (h : ofValue v = .ok d) {e : String × Definition}
    (he : e ∈ d.definitions) (call : e.2.call? ≠ none) : e.1 = mainKey := by
  obtain ⟨es, kind, n, name, s, hkind, hs, place, turned, read, -⟩ :=
    exists_turns_of_ofValue h he
  rcases place with main | listed
  · exact main
  · obtain ⟨fields, ms, rfl, rfl, type, -⟩ :=
      (Language.names_definitions _ hs).turns hkind turned
    have named := Definition.type_of_call type read call
    have others : ∀ name ∈ ["query", "procedure", "subscription"],
        name ∉ Entries.keys Language.valueTypes := by
      decide
    exact absurd (Entries.mem_keys_of_mem listed) (others name named)

/-- In a document that was read, a clash is one of the main call and another definition. -/
theorem Clash.of_ofValue {part key : String} (clash : d.Clash part key)
    (distinct : d.definitions.keys.Nodup) {v : Value} (h : ofValue v = .ok d) :
    key ≠ mainKey ∧ Naming.className key = Naming.className part ∧
      ∃ main, d.definitions.find? mainKey = some main ∧ part ∈ main.callParts := by
  obtain ⟨⟨e, he, hp⟩, ⟨other, hother, rfl, notCall⟩, same⟩ := clash
  have call : e.2.call? ≠ none := by
    intro none
    rw [Definition.callParts, none] at hp
    exact List.not_mem_nil hp
  have main := key_eq_of_call h he call
  have found : d.definitions.find? mainKey = some e.2 :=
    (Entries.find?_eq_some_iff distinct).mpr (main ▸ he)
  have ne : other.1 ≠ mainKey := by
    intro isMain
    have found' : d.definitions.find? mainKey = some other.2 :=
      (Entries.find?_eq_some_iff distinct).mpr (isMain ▸ hother)
    rw [Option.some.inj (found.symm.trans found')] at call
    exact call (notCall isMain)
  rw [classNameOf, if_neg ne] at same
  exact ⟨ne, same, e.2, found, hp⟩

end Document

namespace Bundle

/-- **Class names clash only with the names of parts.** The records under two keys of a compiled
document have classes of one name exactly if one key is that of a part of a call, and the other that
of a definition which takes the class name of the part. If the document was read from a value, the
call is the main definition, and the other definition is not. -/
theorem name_eq_iff_clash {d : Document} {id : BundleId} {registry : Nat} {strict : Bool}
    {b : Bundle} (compiled : (d.compile id registry strict).outcome = .ok b) :
    (∀ k k' x y, b.binding? k = some x → b.binding? k' = some y → k ≠ k' →
      (x.recordType.name = y.recordType.name ↔ d.Clash k k' ∨ d.Clash k' k)) ∧
      ∀ v part key, Document.ofValue v = .ok d → d.Clash part key →
        key ≠ mainKey ∧ Naming.className key = Naming.className part ∧
          ∃ main, d.definitions.find? mainKey = some main ∧ part ∈ main.callParts := by
  obtain ⟨⟨-, ⟨_, all⟩, -⟩, rfl, -, unbound⟩ := Document.of_compile compiled
  obtain ⟨names, -, distinct⟩ := Document.compiled_of_outcome all
  refine ⟨?_, fun v part key read clash =>
    clash.of_ofValue (Document.nodup_classNameOf names).of_map read⟩
  have named := Document.named_of_outcome all
  have sameKeys : b.definitions.keys = b.document.classNames.keys := by
    refine List.forall₂_eq_eq_eq ▸ ?_
    rw [Entries.keys, Entries.keys, List.forall₂_map_left_iff, List.forall₂_map_right_iff]
    exact named.flip.imp fun _ _ h => h.1
  have mem {key : String} {z : Binding} (hz : b.binding? key = some z) :
      (key, z.recordType.name) ∈ b.document.classNames := by
    rw [binding?, unbound] at hz
    obtain ⟨c, hc, hz⟩ := Option.bind_eq_some_iff.mp hz
    obtain ⟨t, ht, rfl⟩ := Option.map_eq_some_iff.mp hz
    obtain ⟨⟨own, name⟩, he, rfl, -, hname⟩ := named.exists_left (Entries.mem_of_find?_eq_some hc)
    rw [hname t ht]
    exact he
  intro k k' x y hx hy ne
  exact Document.classNames_eq_iff_clash names (sameKeys ▸ distinct) (mem hx) (mem hy) ne

/-- A document with a main call that has parameters, and an object by the class name of these. -/
def callWithParams : Value :=
  .object [("lexicon", .int 1), ("id", .str "com.example.call"), ("defs", .object [
    ("main", .object [("type", .str "query"), ("parameters",
      .object [("type", .str "params"), ("properties", .object [])])]),
    ("Params", .object [("type", .str "object"), ("properties", .object [])])])]

theorem name_eq_iff_clash_params :
    ∃ d b x y z, Document.ofValue callWithParams = .ok d ∧
      (d.compile (.loose 0) 0 true).outcome = .ok b ∧ b.binding? "main" = some x ∧
      b.binding? "params" = some y ∧ b.binding? "Params" = some z ∧
      (x.recordType.name ≠ z.recordType.name ∧ ¬d.Clash "main" "Params") ∧
      (d.Clash "params" "Params" ∨ d.Clash "Params" "params") ∧
      ∀ part key, d.Clash part key → key ≠ mainKey := by
  have evaluated : (Document.ofValue callWithParams).toOption.any (fun d =>
      (d.compile (.loose 0) 0 true).outcome.toOption.any fun b =>
        (b.binding? "main").any fun x => (b.binding? "params").any fun y =>
          (b.binding? "Params").any fun z => x.recordType.name != z.recordType.name &&
            y.recordType.name == z.recordType.name) = true := by
    decide +kernel
  simp only [Option.any_eq_true, Bool.and_eq_true, bne_iff_ne, beq_iff_eq] at evaluated
  obtain ⟨d, read, b, compiled, x, hx, y, hy, z, hz, differ, same⟩ := evaluated
  replace read := Except.eq_ok_of_toOption_eq_some read
  replace compiled := Except.eq_ok_of_toOption_eq_some compiled
  obtain ⟨iff, other⟩ := name_eq_iff_clash compiled
  exact ⟨d, b, x, y, z, read, compiled, hx, hy, hz,
    ⟨differ, fun clash => differ ((iff "main" "Params" x z hx hz (by decide)).mpr (.inl clash))⟩,
    (iff "params" "Params" y z hy hz (by decide)).mp same,
    fun part key clash => (other _ part key read clash).1⟩

/-- The parameters of the call and the object have classes of one name. -/
theorem names_eq_params :
    ∃ d b x y, Document.ofValue callWithParams = .ok d ∧
      (d.compile (.loose 0) 0 true).outcome = .ok b ∧ b.binding? "params" = some x ∧
      b.binding? "Params" = some y ∧ "params" ≠ "Params" ∧
      x.recordType.name = y.recordType.name := by
  have evaluated : (Document.ofValue callWithParams).toOption.any (fun d =>
      (d.compile (.loose 0) 0 true).outcome.toOption.any fun b =>
        (b.binding? "params").any fun x => (b.binding? "Params").any fun y =>
          x.recordType.name == y.recordType.name) = true := by
    decide +kernel
  simp only [Option.any_eq_true, beq_iff_eq] at evaluated
  obtain ⟨d, read, b, compiled, x, hx, y, hy, same⟩ := evaluated
  exact ⟨d, b, x, y, Except.eq_ok_of_toOption_eq_some read,
    Except.eq_ok_of_toOption_eq_some compiled, hx, hy, by decide, same⟩

end Bundle

end Lexicon
