import Lexicon.Proofs.Schema.Written

/-!
# Checking checked values

A check that ends with a value has nothing left to do on that value: defaults are there, bytes are
raw, items are in a list and declared keys come first. Main statements: a schema leaves what it has
made of a value as it is, if its parts do and each default is left as it is; the schemas of single
values, of bytes, of links and of blobs do in any case.
-/

namespace Lexicon.Schema

variable (follow : Reference → Value → Path → Check Unit Value)

/-- A schema leaves what it has made of a value as it is. -/
def Idempotent (s : Schema) : Prop :=
  ∀ ⦃v m : Value⦄ ⦃path : Path⦄, (s.checkWith follow v path).outcome = .ok m →
    (s.checkWith follow m path).outcome = .ok m

variable {follow} {s : Schema}

theorem Scalar.idempotent (h : s.Scalar) : s.Idempotent follow := by
  intro v m path hm
  obtain ⟨rfl, anywhere⟩ := h.accepted hm
  exact anywhere follow path

theorem idempotent_any : Idempotent follow .any := fun _ _ _ _ => rfl

theorem idempotent_noop : Idempotent follow .noop := fun _ _ _ _ => rfl

theorem idempotent_bytes (bounds : Bounds) : Idempotent follow (.bytes bounds) := by
  intro v m path hm
  simp only [checkWith, Check.outcome_bind] at hm
  obtain ⟨b, _, hm⟩ := Except.bind_eq_ok_iff.mp hm
  obtain ⟨_, hbounds, hm⟩ := Except.bind_eq_ok_iff.mp hm
  obtain rfl := Except.ok.inj hm
  have raw : (readBytes (.bytes b) path : Check Unit _).outcome = .ok b := rfl
  simp only [checkWith, Check.outcome_bind, raw, Except.ok_bind, hbounds]
  rfl

/-! ### Marks and arrays -/

theorem Idempotent.required (h : s.Idempotent follow) : Idempotent follow (.required s) := by
  intro v m path hm
  simp only [checkWith] at hm ⊢
  exact h hm

theorem Idempotent.withDefault (h : s.Idempotent follow) (value : Value) :
    Idempotent follow (.withDefault s value) := by
  intro v m path hm
  simp only [checkWith] at hm ⊢
  exact h hm

theorem Idempotent.nullable (h : s.Idempotent follow) : Idempotent follow (.nullable s) := by
  intro v m path hm
  by_cases hnull : m = .null
  · rw [hnull]
    rfl
  · have proper : v ≠ .null := by
      rintro rfl
      exact hnull (Except.ok.inj hm).symm
    rw [checkWith_nullable proper] at hm
    rw [checkWith_nullable hnull]
    exact h hm

private theorem idempotent_items (h : s.Idempotent follow) {path : Path} {i : Nat}
    {xs ys : List Value} (hys : (checkItems (checkWith follow s) path i xs).outcome = .ok ys) :
    ys.length = xs.length ∧ (checkItems (checkWith follow s) path i ys).outcome = .ok ys := by
  induction xs generalizing i ys with
  | nil =>
    obtain rfl := Except.ok.inj hys
    exact ⟨rfl, rfl⟩
  | cons x xs ih =>
    simp only [checkItems, Check.outcome_bind] at hys
    obtain ⟨y, hy, hys⟩ := Except.bind_eq_ok_iff.mp hys
    obtain ⟨rest, hrest, hys⟩ := Except.bind_eq_ok_iff.mp hys
    obtain rfl := Except.ok.inj hys
    obtain ⟨length, again⟩ := ih hrest
    refine ⟨congrArg (· + 1) length, ?_⟩
    simp only [checkItems, Check.outcome_bind, h hy, again, Except.ok_bind]
    rfl

theorem Idempotent.array (h : s.Idempotent follow) (bounds : Bounds) :
    Idempotent follow (.array s bounds) := by
  intro v m path hm
  cases v with
  | list xs | tuple xs =>
    simp only [checkWith, Check.outcome_bind] at hm
    obtain ⟨_, hbounds, hm⟩ := Except.bind_eq_ok_iff.mp hm
    obtain ⟨ys, hys, hm⟩ := Except.bind_eq_ok_iff.mp hm
    obtain rfl := Except.ok.inj hm
    obtain ⟨length, again⟩ := idempotent_items h hys
    simp only [checkWith, Check.outcome_bind, length, hbounds, again, Except.ok_bind]
    rfl
  | _ => simp [checkWith, Check.fail] at hm

/-! ### Objects -/

/-- A field of an object leaves its values as they are, and the value that stands in for an absent
one. -/
structure IdempotentField (follow : Reference → Value → Path → Check Unit Value) (s : Schema) :
    Prop where
  value : s.Idempotent follow
  default : ∀ d, s.default? = some d → ∀ path, (s.checkWith follow d path).outcome = .ok d

theorem IdempotentField.of_value (h : s.Idempotent follow) (plain : s.default? = none) :
    s.IdempotentField follow :=
  ⟨h, fun d hd => by simp [plain] at hd⟩

/-- A field puts its part again into an object that holds it. -/
theorem IdempotentField.part (h : s.IdempotentField follow) {es es' : Entries Value} {path : Path}
    {key : String} {p : Option (String × Value)} (hp : part follow es path key s = .ok p)
    (held : es'.find? key = p.map Prod.snd) : part follow es' path key s = .ok p := by
  cases p with
  | none =>
    obtain ⟨-, plain, optional⟩ := part_eq_none_iff.mp hp
    exact part_eq_none_iff.mpr ⟨held, plain, optional⟩
  | some e =>
    rcases part_eq_some_iff.mp hp with ⟨x, y, -, hy, rfl⟩ | ⟨-, d, hd, rfl⟩
    · rw [part_of_found held, h.value hy]
      rfl
    · rw [part_of_found held, h.default d hd]
      rfl

/-- The undeclared entries of a checked object are those of the given one. -/
theorem undeclared_checked {fields : List (String × Schema)} {es : Entries Value} {path : Path}
    {parts : List (Option (String × Value))}
    (h : List.Forall₂ (fun e p => part follow es path e.1 e.2 = .ok p) fields parts) :
    undeclared fields (parts.filterMap id ++ undeclared fields es) = undeclared fields es := by
  have declared : undeclared fields (parts.filterMap id) = [] := by
    rw [undeclared, List.filter_eq_nil_iff]
    intro e he
    obtain ⟨p, hp, rfl⟩ := List.mem_filterMap.mp he
    obtain ⟨field, hfield, hpart⟩ := h.exists_left hp
    rw [key_of_part follow hpart, Entries.has_eq_true_iff.mpr (Entries.mem_keys_of_mem hfield)]
    simp
  simp only [undeclared, List.filter_append, List.filter_filter, Bool.and_self] at declared ⊢
  rw [declared, List.nil_append]

/-- An object without rules for undeclared keys leaves what it has made as it is, if its declared
fields do. -/
theorem idempotent_fields {fields : List (String × Schema)} (hnodup : (Entries.keys fields).Nodup)
    (h : ∀ e ∈ fields, e.2.IdempotentField follow) : Idempotent follow (.fields fields) := by
  intro v m path hm
  obtain ⟨es, parts, rfl, hparts, rfl⟩ := outcome_fields_eq_ok_iff.mp hm
  refine outcome_fields_eq_ok_iff.mpr ⟨_, parts, rfl, ?_, by rw [undeclared_checked hparts]⟩
  refine hparts.imp_mem fun e he p _ hp => ?_
  obtain ⟨p', hp', held⟩ := find?_checked hparts hnodup he
  obtain rfl := Except.ok.inj (hp.symm.trans hp')
  exact (h e he).part hp held

/-! ### Links and blobs -/

theorem idempotent_linkSchema : Idempotent follow Field.linkSchema := by
  refine idempotent_fields (by decide) fun e he => ?_
  rw [List.mem_singleton.mp he]
  exact .of_value (Scalar.string _).idempotent.required rfl

theorem idempotent_blobSchema (pattern : MediaPattern) (maxSize : Option Value) :
    Idempotent follow (Field.blobSchema pattern maxSize) := by
  have single {s : Schema} (h : s.Scalar) : IdempotentField follow (.required s) :=
    .of_value h.idempotent.required h.default?_eq_none
  have current : Idempotent follow (.fields (blobFields pattern maxSize)) := by
    refine idempotent_fields (by simp [Entries.keys, blobFields]) ?_
    exact forall_mem_blobFields (P := IdempotentField follow) single
      (.of_value idempotent_linkSchema.required rfl) pattern maxSize
  have older : Idempotent follow (.fields (olderBlobFields pattern)) := by
    refine idempotent_fields (by simp [Entries.keys, olderBlobFields]) ?_
    exact forall_mem_olderBlobFields (P := IdempotentField follow) single pattern
  intro v m path hm
  rw [outcome_blobSchema_iff] at hm ⊢
  rcases hm with hm | ⟨⟨f, hf⟩, hm⟩
  · exact .inl (current hm)
  · refine .inr ⟨⟨f, ?_⟩, older hm⟩
    -- the older form keeps what stands under each key, so that the current form fails again
    cases v with
    | object es =>
      obtain ⟨ns, rfl⟩ := exists_entries hm
      exact refuses_congr (find?_of_olderBlob hm) hf
    | _ => simp [Schema.fields, checkWith, Check.fail] at hm

end Lexicon.Schema
