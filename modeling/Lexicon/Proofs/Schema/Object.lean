import Lexicon.Proofs.Check.Simulation
import Lexicon.Proofs.Entries

/-!
# Checking objects

The outcome of the check of an object, field by field. Main statement: the declared fields are
judged one by one, each from the value under its key alone, and the result holds their parts in
order of declaration and then the undeclared entries as they are.
-/

namespace Lexicon

namespace Schema

variable (follow : Reference → Value → Path → Check Unit Value)

/-- What a declared field puts into the result: the normalized value if there is one, the default
if there is none, or nothing. -/
def part (es : Entries Value) (path : Path) (key : String) (field : Schema) :
    Except Fault (Option (String × Value)) :=
  match es.find? key with
  | some x => (fun y => some (key, y)) <$> (checkWith follow field x (path ++ [.key key])).outcome
  | none =>
    match field.default? with
    | some value => pure (some (key, value))
    | none =>
      if field.isRequired then throw (.invalid ⟨path ++ [.key key], .missing⟩) else pure none

theorem outcome_checkFields (fields : List (String × Schema)) (es : Entries Value) (path : Path) :
    (checkFields follow fields es path).outcome =
      List.filterMap id <$> fields.mapM fun e => part follow es path e.1 e.2 := by
  induction fields with
  | nil => rfl
  | cons e rest ih =>
    obtain ⟨key, field⟩ := e
    rw [List.mapM_cons]
    generalize (rest.mapM fun e => part follow es path e.1 e.2) = parts at ih ⊢
    simp only [checkFields, part]
    rcases Entries.find? es key with _ | x
    · rcases field.default? with _ | value
      · dsimp only
        split_ifs
        · rfl
        · rw [ih]
          cases parts <;> rfl
      · simp [ih]
    · simp [Check.outcome_bind, ih]

theorem outcome_checkEntries (check : String → Value → Path → Check Unit Value) (path : Path)
    (es : Entries Value) :
    (checkEntries check path es).outcome =
      es.mapM fun e => (fun y => (e.1, y)) <$> (check e.1 e.2 (path ++ [.key e.1])).outcome := by
  induction es with
  | nil => rfl
  | cons e rest ih =>
    simp [checkEntries, Check.outcome_bind, ih]

/-- The entries of an object whose keys are not declared. -/
def undeclared (fields : List (String × Schema)) (es : Entries Value) : Entries Value :=
  es.filter fun e => !Entries.has fields e.1

/-- The check of an object judges the declared fields and then the others. -/
theorem outcome_object (fields : List (String × Schema)) (extra : Option Schema) (closed : Bool)
    (es : Entries Value) (path : Path) :
    (checkWith follow (.object fields extra closed) (.object es) path).outcome = do
      let parts ← fields.mapM fun e => part follow es path e.1 e.2
      let others ← (undeclared fields es).mapM fun e =>
        (fun y => (e.1, y)) <$>
          (checkExtra follow extra closed e.2 (path ++ [.key e.1])).outcome
      return .object (parts.filterMap id ++ others) := by
  simp [checkWith, Check.outcome_bind, outcome_checkFields, outcome_checkEntries, undeclared]

/-- An object without rules for undeclared keys keeps these as they are. -/
theorem outcome_fields (fields : List (String × Schema)) (es : Entries Value) (path : Path) :
    (checkWith follow (.fields fields) (.object es) path).outcome =
      (fun parts => .object (parts.filterMap id ++ undeclared fields es)) <$>
        fields.mapM fun e => part follow es path e.1 e.2 := by
  have others : ((undeclared fields es).mapM fun e => (fun y => (e.1, y)) <$>
      (checkExtra follow none false e.2 (path ++ [.key e.1])).outcome) =
        pure (undeclared fields es) := by
    show _ = Except.ok _
    rw [Except.mapM_eq_ok_iff, List.forall₂_same]
    exact fun e _ => rfl
  simp [Schema.fields, outcome_object, others]

variable {follow}

/-- An object is made of an object: of the parts of the declared fields and of what its rule makes
of the other entries. -/
theorem outcome_object_eq_ok_iff {fields : List (String × Schema)} {extra : Option Schema}
    {closed : Bool} {v n : Value} {path : Path} :
    (checkWith follow (.object fields extra closed) v path).outcome = .ok n ↔
      ∃ es parts others, v = .object es ∧
        List.Forall₂ (fun e p => part follow es path e.1 e.2 = .ok p) fields parts ∧
        List.Forall₂ (fun e m : String × Value => m.1 = e.1 ∧
          (checkExtra follow extra closed e.2 (path ++ [.key e.1])).outcome = .ok m.2)
          (undeclared fields es) others ∧
        n = .object (parts.filterMap id ++ others) := by
  cases v with
  | object es =>
    have entry {e m : String × Value} :
        ((fun y => (e.1, y)) <$>
          (checkExtra follow extra closed e.2 (path ++ [.key e.1])).outcome) = .ok m ↔
        m.1 = e.1 ∧
          (checkExtra follow extra closed e.2 (path ++ [.key e.1])).outcome = .ok m.2 := by
      rw [Except.map_eq_ok_iff]
      constructor
      · rintro ⟨y, hy, rfl⟩
        exact ⟨rfl, hy⟩
      · rintro ⟨key, hy⟩
        exact ⟨_, hy, Prod.ext key.symm rfl⟩
    rw [outcome_object]
    simp only [Except.bind_eq_ok_iff, Except.mapM_eq_ok_iff, entry]
    constructor
    · rintro ⟨parts, hparts, others, hothers, same⟩
      exact ⟨es, parts, others, rfl, hparts, hothers, (Except.ok.inj same).symm⟩
    · rintro ⟨_, parts, others, ⟨⟩, hparts, hothers, rfl⟩
      exact ⟨parts, hparts, others, hothers, rfl⟩
  | _ => simp [checkWith, Check.fail]

/-- An object without rules for undeclared keys is made of an object: of the parts of the declared
fields and of the other entries as they are. -/
theorem outcome_fields_eq_ok_iff {fields : List (String × Schema)} {v n : Value} {path : Path} :
    (checkWith follow (.fields fields) v path).outcome = .ok n ↔
      ∃ es parts, v = .object es ∧
        List.Forall₂ (fun e p => part follow es path e.1 e.2 = .ok p) fields parts ∧
        n = .object (parts.filterMap id ++ undeclared fields es) := by
  cases v with
  | object es =>
    rw [outcome_fields, Except.map_eq_ok_iff]
    simp only [Except.mapM_eq_ok_iff]
    constructor
    · rintro ⟨parts, hparts, rfl⟩
      exact ⟨es, parts, rfl, hparts, rfl⟩
    · rintro ⟨_, parts, ⟨⟩, hparts, rfl⟩
      exact ⟨parts, hparts, rfl⟩
  | _ => simp [Schema.fields, checkWith, Check.fail]

/-! ### What a field puts into the result -/

theorem part_of_found {es : Entries Value} {key : String} {x : Value} (hx : es.find? key = some x)
    (path : Path) (field : Schema) :
    part follow es path key field =
      (fun y => some (key, y)) <$> (checkWith follow field x (path ++ [.key key])).outcome := by
  simp only [part, hx]

/-- A declared field puts nothing into the result exactly if it is absent and may be. -/
theorem part_eq_none_iff {es : Entries Value} {path : Path} {key : String} {field : Schema} :
    part follow es path key field = .ok none ↔
      es.find? key = none ∧ field.default? = none ∧ field.isRequired = false := by
  unfold part
  cases es.find? key with
  | some x => simp [Except.map_eq_ok_iff]
  | none =>
    cases field.default? with
    | some d => simp [Except.pure_eq_ok]
    | none =>
      cases field.isRequired <;> simp [Except.pure_eq_ok, Except.throw_eq_error]

/-- A declared field puts an entry into the result exactly if it makes it of the value under its
key, or if it has a default and nothing stands there. -/
theorem part_eq_some_iff {es : Entries Value} {path : Path} {key : String} {field : Schema}
    {e : String × Value} :
    part follow es path key field = .ok (some e) ↔
      (∃ x y, es.find? key = some x ∧
        (checkWith follow field x (path ++ [.key key])).outcome = .ok y ∧ e = (key, y)) ∨
      es.find? key = none ∧ ∃ d, field.default? = some d ∧ e = (key, d) := by
  unfold part
  cases es.find? key with
  | some x =>
    rw [Except.map_eq_ok_iff]
    simp [eq_comm]
  | none =>
    cases field.default? with
    | some d => simp [Except.pure_eq_ok, eq_comm]
    | none =>
      cases field.isRequired <;> simp [Except.pure_eq_ok, Except.throw_eq_error]

variable (follow) in
theorem key_of_part {es : Entries Value} {path : Path} {key : String} {field : Schema}
    {e : String × Value} (h : part follow es path key field = .ok (some e)) : e.1 = key := by
  rcases part_eq_some_iff.mp h with ⟨_, _, -, -, rfl⟩ | ⟨-, _, -, rfl⟩ <;> rfl

/-- A field without a default makes what it puts into the result of the value under its key. -/
theorem exists_found_of_part {es : Entries Value} {path : Path} {key : String} {field : Schema}
    {e : String × Value} (plain : field.default? = none)
    (h : part follow es path key field = .ok (some e)) :
    ∃ x, es.find? key = some x ∧
      (checkWith follow field x (path ++ [.key key])).outcome = .ok e.2 := by
  rcases part_eq_some_iff.mp h with ⟨x, _, hx, hy, rfl⟩ | ⟨-, d, hd, -⟩
  · exact ⟨x, hx, hy⟩
  · cases plain.symm.trans hd

/-- A field that must be present puts into the result what it makes of the value under its key. -/
theorem exists_found_of_required {es : Entries Value} {path : Path} {key : String} {field : Schema}
    {p : Option (String × Value)} (required : field.isRequired = true)
    (plain : field.default? = none) (h : part follow es path key field = .ok p) :
    ∃ x y, es.find? key = some x ∧
      (checkWith follow field x (path ++ [.key key])).outcome = .ok y ∧ p = some (key, y) := by
  cases p with
  | none => cases required.symm.trans (part_eq_none_iff.mp h).2.2
  | some e =>
    rcases part_eq_some_iff.mp h with ⟨x, y, hx, hy, rfl⟩ | ⟨-, d, hd, -⟩
    · exact ⟨x, y, hx, hy, rfl⟩
    · cases plain.symm.trans hd

/-! ### What the result holds -/

theorem find?_parts_of_notMem {fields : List (String × Schema)} {es : Entries Value} {path : Path}
    {parts : List (Option (String × Value))}
    (h : List.Forall₂ (fun e p => part follow es path e.1 e.2 = .ok p) fields parts) {key : String}
    (hkey : key ∉ Entries.keys fields) : Entries.find? (parts.filterMap id) key = none :=
  Entries.find?_collected_of_notMem h (fun _ _ hpart => key_of_part follow hpart) hkey

/-- Under the key of a declared field stands what the field puts there. -/
theorem find?_parts {fields : List (String × Schema)} (hnodup : (Entries.keys fields).Nodup)
    {es : Entries Value} {path : Path} {parts : List (Option (String × Value))}
    (h : List.Forall₂ (fun e p => part follow es path e.1 e.2 = .ok p) fields parts)
    {key : String} {field : Schema} (hfield : (key, field) ∈ fields) :
    ∃ p, part follow es path key field = .ok p ∧
      Entries.find? (parts.filterMap id) key = p.map Prod.snd := by
  have collected := Entries.find?_collected hnodup h fun _ _ hpart => key_of_part follow hpart
  obtain ⟨p, _, hp⟩ := collected.exists_right hfield
  exact ⟨p, hp⟩

/-- Under a key that stands in an object, the result holds what the first field with this key makes
of the value. -/
theorem find?_parts_of_found {fields : List (String × Schema)} {es : Entries Value} {path : Path}
    {parts : List (Option (String × Value))}
    (h : List.Forall₂ (fun e p => part follow es path e.1 e.2 = .ok p) fields parts) {key : String}
    {field : Schema} (hfield : Entries.find? fields key = some field) {x : Value}
    (hx : es.find? key = some x) :
    ∃ y, (checkWith follow field x (path ++ [.key key])).outcome = .ok y ∧
      Entries.find? (parts.filterMap id) key = some y := by
  induction h with
  | nil => cases hfield
  | @cons e p fields parts hp _ ih =>
    obtain ⟨k, s⟩ := e
    by_cases same : k = key
    · subst same
      obtain rfl : s = field := by simpa [Entries.find?] using hfield
      rw [part_of_found hx] at hp
      obtain ⟨y, hy, rfl⟩ := Except.map_eq_ok_iff.mp hp
      exact ⟨y, hy, by simp [Entries.find?]⟩
    · obtain ⟨y, hy, found⟩ := ih (by simpa [Entries.find?, same] using hfield)
      refine ⟨y, hy, ?_⟩
      cases p with
      | none => simpa using found
      | some e =>
        have own := key_of_part follow hp
        simpa [Entries.find?, own, same] using found

theorem find?_undeclared (fields : List (String × Schema)) (es : Entries Value) (key : String) :
    Entries.find? (undeclared fields es) key =
      if key ∈ Entries.keys fields then none else Entries.find? es key := by
  rw [undeclared, Entries.find?_filter (fun k => !Entries.has fields k)]
  by_cases h : key ∈ Entries.keys fields
  · simp [h, Entries.has_eq_true_iff.mpr h]
  · have : ¬ Entries.has fields key = true := fun h' => h (Entries.has_eq_true_iff.mp h')
    simp [h, this]

section Checked

variable {fields : List (String × Schema)} {es : Entries Value} {path : Path}
  {parts : List (Option (String × Value))}
  (h : List.Forall₂ (fun e p => part follow es path e.1 e.2 = .ok p) fields parts)

include h

/-- Under the key of a declared field the result holds what the field puts there. -/
theorem find?_checked (hnodup : (Entries.keys fields).Nodup) {key : String} {field : Schema}
    (hfield : (key, field) ∈ fields) :
    ∃ p, part follow es path key field = .ok p ∧
      Entries.find? (parts.filterMap id ++ undeclared fields es) key = p.map Prod.snd := by
  obtain ⟨p, hp, hfound⟩ := find?_parts hnodup h hfield
  refine ⟨p, hp, ?_⟩
  rw [Entries.find?_append, hfound, find?_undeclared, if_pos (Entries.mem_keys_of_mem hfield),
    Option.or_none]

/-- Under other keys the result holds what was given. -/
theorem find?_checked_of_notMem {key : String} (hkey : key ∉ Entries.keys fields) :
    Entries.find? (parts.filterMap id ++ undeclared fields es) key = es.find? key := by
  rw [Entries.find?_append, find?_parts_of_notMem h hkey, Option.none_or, find?_undeclared,
    if_neg hkey]

end Checked

end Schema

end Lexicon
