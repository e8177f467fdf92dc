import Lexicon.Proofs.Compile.ClassNames
import Lexicon.Proofs.Document.Decoded

/-!
# The order of a document

The schema of documents declares the main definition, and an object is normalized with its declared
keys before the others; so the main definition comes first, wherever the source lists it. Everything
else keeps the order of the source. Main statement: in which order the definitions of a document,
the keys of its bundle and the properties of each object stand; the definitions stand in that of the
source exactly if it lists the main one first or not at all.
-/

namespace Lexicon

namespace Document

/-- Keys with the main one, if it is among them, before the others. -/
def mainFirst (keys : List String) : List String :=
  keys.filter (· = mainKey) ++ keys.filter (· ≠ mainKey)

theorem filter_ne_mainKey {keys : List String} (h : mainKey ∉ keys) :
    keys.filter (· ≠ mainKey) = keys := by
  rw [List.filter_eq_self]
  intro key hkey
  exact decide_eq_true fun same => h (same ▸ hkey)

theorem mainFirst_of_notMem {keys : List String} (h : mainKey ∉ keys) : mainFirst keys = keys := by
  rw [mainFirst, List.filter_eq, List.count_eq_zero_of_not_mem h, filter_ne_mainKey h]
  rfl

theorem mainFirst_of_mem {keys : List String} (distinct : keys.Nodup) (h : mainKey ∈ keys) :
    mainFirst keys = mainKey :: keys.filter (· ≠ mainKey) := by
  rw [mainFirst, List.filter_eq, List.count_eq_one_of_mem distinct h]
  rfl

/-- Different keys stand in this order unless the main one comes after another. -/
theorem mainFirst_eq_self_iff {keys : List String} (distinct : keys.Nodup) :
    mainFirst keys = keys ↔ mainKey ∉ keys.tail := by
  by_cases h : mainKey ∈ keys
  · rw [mainFirst_of_mem distinct h]
    cases keys with
    | nil => cases h
    | cons key rest =>
      obtain ⟨fresh, -⟩ := List.nodup_cons.mp distinct
      constructor
      · intro same
        obtain ⟨rfl, -⟩ := List.cons.inj same
        exact fresh
      · intro later
        obtain rfl : mainKey = key := (List.mem_cons.mp h).resolve_right later
        rw [List.filter_cons_of_neg (by simp), filter_ne_mainKey fresh]
  · exact iff_of_true (mainFirst_of_notMem h) fun later => h (List.mem_of_mem_tail later)

/-- What is made of definitions has the main one first, and the others in their order. -/
theorem keys_of_definitionsSchema {es ms : Entries Value} (distinct : es.keys.Nodup)
    (h : definitionsSchema.Turns (.object es) (.object ms)) : ms.keys = mainFirst es.keys := by
  obtain ⟨path, hn⟩ := Schema.turns_required_iff.mp h
  rw [Schema.outcome_object] at hn
  simp only [Except.bind_eq_ok_iff, Except.mapM_eq_ok_iff, List.forall₂_cons_left_iff,
    List.forall₂_nil_left_iff] at hn
  obtain ⟨_, ⟨p, _, hp, rfl, rfl⟩, others, hothers, hn⟩ := hn
  obtain rfl := Value.object.inj (Except.ok.inj hn)
  change Schema.part _ es path mainKey _ = _ at hp
  have rest : Entries.keys others = es.keys.filter (· ≠ mainKey) := by
    have kept : Entries.keys others = Entries.keys (Schema.undeclared [(mainKey, _)] es) :=
      Entries.keys_eq_of_forall₂ <| hothers.imp fun e m made => by
        obtain ⟨_, _, rfl⟩ := Except.map_eq_ok_iff.mp made
        rfl
    rw [kept, Schema.undeclared, Entries.keys, Entries.keys, List.filter_map]
    refine congrArg _ (List.filter_congr fun e _ => ?_)
    by_cases hkey : e.1 = mainKey <;> simp [Entries.has, Entries.find?, hkey, Ne.symm]
  rw [Entries.keys, List.map_append]
  change _ ++ Entries.keys others = _
  rw [rest]
  cases hx : Entries.find? es mainKey with
  | some x =>
    rw [Schema.part_of_found hx] at hp
    obtain ⟨y, -, rfl⟩ := Except.map_eq_ok_iff.mp hp
    exact (mainFirst_of_mem distinct (Entries.mem_keys_of_mem
      (Entries.mem_of_find?_eq_some hx))).symm
  | none =>
    have absent : mainKey ∉ es.keys := by
      rw [← Entries.has_eq_true_iff, Entries.has, hx]
      exact Bool.false_ne_true
    obtain rfl : p = none := by
      simpa [Schema.part, hx, Schema.default?, Schema.isRequired, Except.pure_eq_ok] using hp.symm
    rw [mainFirst_of_notMem absent, filter_ne_mainKey absent]
    rfl

/-- **The order of a document** that is read from a decoded value. Its definitions stand in the
order of the source, but for the main one, which comes first; so they stand in the very order of the
source exactly if that does not list the main one after another. The keys of a bundle of the
document are the names of the definitions in this order, each followed by the parts of the call that
it may be. Within every object of a definition the properties stand in the order of the source. -/
theorem keys_eq_mainFirst {v : Value} (hv : v.Decoded) {d : Document} (h : ofValue v = .ok d) :
    ∃ given : Entries Value, Path.follow? [.key "defs"] v = some (.object given) ∧
      d.definitions.keys = mainFirst given.keys ∧
      (d.definitions.keys = given.keys ↔ mainKey ∉ given.keys.tail) ∧
      (∀ id registry strict b, (d.compile id registry strict).outcome = .ok b →
        b.keys = d.definitions.flatMap fun e => e.1 :: e.2.callParts) ∧
      ∀ e ∈ d.definitions, ∀ o ∈ e.2.objects, ∃ es : Entries Value,
        Path.follow? ([.key "defs", .key e.1] ++ o.1 ++ [.key "properties"]) v =
          some (.object es) ∧ o.2.keys = es.keys := by
  obtain ⟨given, made, found, turned, read⟩ := exists_definitions_of_ofValue h
  obtain ⟨given, _, rfl, ⟨⟩, -⟩ :=
    (Schema.turns_required_iff.mp turned).object (by simp [Schema.default?])
  have distinct : (Entries.keys given).Nodup := (hv.distinct.part found).self
  have keys : d.definitions.keys = mainFirst (Entries.keys given) := by
    rw [Entries.keys_eq_of_forall₂ (read.imp fun _ _ same => same.1)]
    exact keys_of_definitionsSchema distinct turned
  refine ⟨given, found, keys, keys ▸ mainFirst_eq_self_iff distinct, ?_, ?_⟩
  · intro id registry strict b compiled
    obtain ⟨⟨-, ⟨_, all⟩, -⟩, rfl, -, -⟩ := of_compile compiled
    exact keys_of_outcome all
  · intro e he o ho
    obtain ⟨es, kind, n, name, s, hkind, hs, -, turned, read, given', found', listed⟩ :=
      exists_turns_of_ofValue h he
    obtain rfl : given = given' := Value.object.inj (Option.some.inj (found.symm.trans found'))
    have place : Path.follow? [.key "defs", .key e.1] v = some (.object es) := by
      rw [← List.singleton_append, Path.follow?_append, found, Option.bind_some, Path.follow?_key,
        (Entries.find?_eq_some_iff distinct).mpr listed]
      rfl
    obtain ⟨ps, found, same⟩ := (Definition.listed_of_turns hkind hs turned read o ho).under _ place
    exact ⟨ps, found, Entries.keys_eq_of_forall₂ (same.imp fun _ _ p => p.1)⟩

/-- A query that is listed after the object that it gives: it comes first, with its parts, and the
properties stay as they are listed. -/
theorem keys_eq_mainFirst_search :
    let integer : Value := .object [("type", .str "integer")]
    let text : Value := .object [("type", .str "string")]
    let v : Value := .object [("lexicon", .int 1), ("id", .str "com.example.search"),
      ("defs", .object [
        ("hit", .object [("type", .str "object"),
          ("properties", .object [("uri", text), ("rank", integer)])]),
        ("main", .object [("type", .str "query"),
          ("parameters", .object [("type", .str "params"),
            ("properties", .object [("text", text), ("limit", integer)])]),
          ("output", .object [("encoding", .str "application/json"),
            ("schema", .object [("type", .str "ref"), ("ref", .str "#hit")])])])])]
    ∃ d b, v.Decoded ∧ ofValue v = .ok d ∧ (d.compile (.loose 0) 0 true).outcome = .ok b ∧
      d.definitions.keys = ["main", "hit"] ∧ b.keys = ["main", "params", "output", "hit"] ∧
      ∀ e ∈ d.definitions, ∀ o ∈ e.2.objects, ∃ es : Entries Value,
        Path.follow? ([.key "defs", .key e.1] ++ o.1 ++ [.key "properties"]) v =
          some (.object es) ∧ o.2.keys = es.keys := by
  intro integer text v
  have hv : v.Decoded := by simp [v, integer, text, Entries.keys]
  have evaluated : (ofValue v).toOption.any (fun d =>
      (d.definitions.flatMap fun e => e.1 :: e.2.callParts) ==
          ["main", "params", "output", "hit"] &&
        (d.compile (.loose 0) 0 true).outcome.isOk) = true := by
    decide +kernel
  simp only [Option.any_eq_true, Bool.and_eq_true, beq_iff_eq] at evaluated
  obtain ⟨d, hd, parts, compiled⟩ := evaluated
  replace hd := Except.eq_ok_of_toOption_eq_some hd
  obtain ⟨b, hb⟩ := Except.exists_of_isOk compiled
  obtain ⟨given, found, keys, -, bundled, properties⟩ := keys_eq_mainFirst hv hd
  obtain rfl := Value.object.inj (Option.some.inj found)
  exact ⟨d, b, hv, hd, hb, keys, (bundled _ _ _ b hb).trans parts, properties⟩

/-- Of two tokens the main one is listed last, and comes first in the document. -/
theorem keys_ne_source :
    let v : Value := .object [("lexicon", .int 1), ("id", .str "com.example.thing"),
      ("defs", .object [("alpha", .object [("type", .str "token")]),
        ("main", .object [("type", .str "token")])])]
    ∃ (d : Document) (given : Entries Value), v.Decoded ∧ ofValue v = .ok d ∧
      Path.follow? [.key "defs"] v = some (.object given) ∧ given.keys = ["alpha", "main"] ∧
      d.definitions.keys = ["main", "alpha"] := by
  intro v
  have hv : v.Decoded := by simp [v, Entries.keys]
  have evaluated : (ofValue v).toOption.any
      (fun d => d.definitions.keys == ["main", "alpha"]) = true := by
    decide +kernel
  simp only [Option.any_eq_true, beq_iff_eq] at evaluated
  obtain ⟨d, hd, keys⟩ := evaluated
  exact ⟨d, _, hv, Except.eq_ok_of_toOption_eq_some hd, rfl, rfl, keys⟩

end Document

end Lexicon
