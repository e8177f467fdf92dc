import Lexicon.Proofs.Check.Place
import Lexicon.Proofs.Schema.Object

/-!
# What schemas without references accept

What it says of a value, and of its parts, that a schema whose references lead nowhere accepts it.
Main statements: a value is accepted at every path if it is at one, and one lemma for each kind of
node on what the node asks of the parts of a value.
-/

namespace Lexicon

theorem Value.eq_of_str?_eq_some {v : Value} {t : String} (h : v.str? = some t) : v = .str t := by
  cases v with
  | str s => exact congrArg Value.str (Option.some.inj h)
  | _ => simp [str?] at h

namespace Schema

/-- No reference leads anywhere. -/
def unfollowed (target : Reference) : Value → Path → Check Unit Value :=
  fun _ _ => throw (.unresolved target.nsid target.fragment [])

/-- A schema without references accepts a value. -/
def Accepts (s : Schema) (v : Value) : Prop :=
  ∃ n, s.plainVerdict v = .ok (.ok n)

instance instDecidableAccepts (s : Schema) (v : Value) : Decidable (s.Accepts v) :=
  match h : s.plainVerdict v with
  | .ok (.ok n) => .isTrue ⟨n, h⟩
  | .ok (.error _) | .error _ => .isFalse fun ⟨_, accepted⟩ => by simp [h] at accepted

theorem outcome_of_plainVerdict {s : Schema} {v n : Value}
    (h : s.plainVerdict v = .ok (.ok n)) : (s.checkWith unfollowed v []).outcome = .ok n := by
  change Check.outcome (Check.attempt (s.checkWith unfollowed v [])) = _ at h
  rw [Check.outcome_attempt] at h
  split at h
  · next heq => rw [heq, Except.ok.inj (Except.ok.inj h)]
  · simp at h
  · simp at h

theorem plainVerdict_of_outcome {s : Schema} {v n : Value}
    (h : (s.checkWith unfollowed v []).outcome = .ok n) : s.plainVerdict v = .ok (.ok n) := by
  change Check.outcome (Check.attempt (s.checkWith unfollowed v [])) = _
  rw [Check.outcome_attempt, h]

theorem accepts_iff {s : Schema} {v : Value} :
    s.Accepts v ↔ ∃ n, (s.checkWith unfollowed v []).outcome = .ok n := by
  constructor
  · rintro ⟨n, hn⟩
    exact ⟨n, outcome_of_plainVerdict hn⟩
  · rintro ⟨n, hn⟩
    exact ⟨n, plainVerdict_of_outcome hn⟩

variable {s : Schema} {v : Value}

/-- What is accepted at some path is accepted. -/
theorem accepts_of_outcome {n : Value} {path : Path}
    (h : (s.checkWith unfollowed v path).outcome = .ok n) : s.Accepts v := by
  have alike := Check.alike.rel_checkWith (p := path) (q := []) s v trivial
    (f := unfollowed) (g := unfollowed) (fun _ => .same _) fun _ _ _ _ _ _ => .same _
  exact accepts_iff.mpr ⟨n, (alike.ok_iff n).mp h⟩

/-! ### Single values and arrays -/

@[simp] theorem accepts_required : (required s).Accepts v ↔ s.Accepts v := by
  simp only [accepts_iff, checkWith]

theorem Accepts.exists_str {rules : TextRules} (h : (string rules).Accepts v) :
    ∃ t, v = .str t := by
  obtain ⟨n, hn⟩ := accepts_iff.mp h
  cases v with
  | str t => exact ⟨t, rfl⟩
  | _ => simp [checkWith, Check.fail] at hn

theorem Accepts.exists_int {bounds : Bounds} (h : (integer bounds).Accepts v) :
    ∃ k, v = .int k := by
  obtain ⟨n, hn⟩ := accepts_iff.mp h
  cases v with
  | int k => exact ⟨k, rfl⟩
  | _ => simp [checkWith, Check.fail] at hn

theorem Accepts.eq_str {t : String} (h : (literal (.str t)).Accepts v) : v = .str t := by
  obtain ⟨n, hn⟩ := accepts_iff.mp h
  simp only [checkWith] at hn
  split_ifs at hn with same
  · cases v <;> simp_all [Value.identical, Value.same]
  · simp [Check.fail] at hn

theorem Accepts.exists_mem_of_enum {values : List Value} (h : (enum values).Accepts v) :
    ∃ x ∈ values, v.identical x = true := by
  obtain ⟨n, hn⟩ := accepts_iff.mp h
  simp only [checkWith] at hn
  split_ifs at hn with same
  · exact List.any_eq_true.mp same
  · simp [Check.fail] at hn

/-- Each item of a checked array is what the check made of the item in its place. -/
theorem forall₂_of_checkItems {check : Value → Path → Check Unit Value} {path : Path}
    {i : Nat} {xs ys : List Value} (h : (checkItems check path i xs).outcome = .ok ys) :
    List.Forall₂ (fun x y => ∃ p, (check x p).outcome = .ok y) xs ys := by
  induction xs generalizing i ys with
  | nil =>
    obtain rfl := Except.ok.inj h
    exact .nil
  | cons x rest ih =>
    simp only [checkItems, Check.outcome_bind] at h
    obtain ⟨y, hy, h⟩ := Except.bind_eq_ok_iff.mp h
    obtain ⟨ys, hys, h⟩ := Except.bind_eq_ok_iff.mp h
    obtain rfl := Except.ok.inj h
    exact .cons ⟨_, hy⟩ (ih hys)

/-- What the check of an array made of a list or a tuple: a list, item by item. -/
theorem forall₂_of_array {follow : Reference → Value → Path → Check Unit Value} {bounds : Bounds}
    {n : Value} {path : Path}
    (h : ((array s bounds).checkWith follow v path).outcome = .ok n) :
    ∃ xs ys, (v = .list xs ∨ v = .tuple xs) ∧ n = .list ys ∧
      List.Forall₂ (fun x y => ∃ p, (s.checkWith follow x p).outcome = .ok y) xs ys := by
  cases v with
  | list xs | tuple xs =>
    simp only [checkWith, Check.outcome_bind] at h
    obtain ⟨_, _, h⟩ := Except.bind_eq_ok_iff.mp h
    obtain ⟨ys, hys, h⟩ := Except.bind_eq_ok_iff.mp h
    obtain rfl := Except.ok.inj h
    exact ⟨xs, ys, by simp, rfl, forall₂_of_checkItems hys⟩
  | _ => simp [checkWith, Check.fail] at h

theorem Accepts.items {bounds : Bounds} (h : (array s bounds).Accepts v) :
    ∃ xs, (v = .list xs ∨ v = .tuple xs) ∧ ∀ x ∈ xs, s.Accepts x := by
  obtain ⟨n, hn⟩ := accepts_iff.mp h
  obtain ⟨xs, ys, hv, -, hys⟩ := forall₂_of_array hn
  refine ⟨xs, hv, fun x hx => ?_⟩
  obtain ⟨y, -, path, hy⟩ := hys.exists_right hx
  exact accepts_of_outcome hy

/-! ### Objects -/

/-- The declared fields of an object accept what stands under their keys, and those that must be
present are. -/
structure AcceptsFields (fields : List (String × Schema)) (es : Entries Value) : Prop where
  part : ∀ {key : String} {field : Schema} {x : Value}, (key, field) ∈ fields →
    es.find? key = some x → field.Accepts x
  present : ∀ {key : String} {field : Schema}, (key, field) ∈ fields → field.isRequired = true →
    field.default? = none → ∃ x, es.find? key = some x

/-- A field that must be present is, and is accepted. -/
theorem AcceptsFields.found {fields : List (String × Schema)} {es : Entries Value}
    (h : AcceptsFields fields es) (key : String) (hfield : (key, required s) ∈ fields)
    (plain : s.default? = none) : ∃ x, es.find? key = some x ∧ s.Accepts x := by
  obtain ⟨x, hx⟩ := h.present hfield rfl plain
  exact ⟨x, hx, accepts_required.mp (h.part hfield hx)⟩

theorem Accepts.object {fields : List (String × Schema)} {extra : Option Schema} {closed : Bool}
    (h : (object fields extra closed).Accepts v) :
    ∃ es, v = .object es ∧ AcceptsFields fields es ∧
      ∀ other, extra = some other → closed = false → ∀ e ∈ es, e.1 ∉ Entries.keys fields →
        other.Accepts e.2 := by
  obtain ⟨n, hn⟩ := accepts_iff.mp h
  obtain ⟨es, parts, others, rfl, hparts, hothers, -⟩ := outcome_object_eq_ok_iff.mp hn
  refine ⟨es, rfl,
    ⟨fun {key field x} hfield hx => ?_, fun {key field} hfield required plain => ?_⟩,
    fun other hextra hclosed e he undeclared => ?_⟩
  · obtain ⟨p, -, hp⟩ := hparts.exists_right hfield
    rw [part_of_found hx] at hp
    obtain ⟨y, hy, -⟩ := Except.map_eq_ok_iff.mp hp
    exact accepts_of_outcome hy
  · obtain ⟨p, -, hp⟩ := hparts.exists_right hfield
    obtain ⟨x, _, hx, -, -⟩ := exists_found_of_required required plain hp
    exact ⟨x, hx⟩
  · have mem : e ∈ Schema.undeclared fields es := by
      refine List.mem_filter.mpr ⟨he, ?_⟩
      rw [Bool.not_eq_true', ← Bool.not_eq_true, Entries.has_eq_true_iff]
      exact undeclared
    obtain ⟨m, -, -, hm⟩ := hothers.exists_right mem
    subst hextra hclosed
    exact accepts_of_outcome hm

theorem Accepts.fields {fields : List (String × Schema)} (h : (Schema.fields fields).Accepts v) :
    ∃ es, v = .object es ∧ AcceptsFields fields es := by
  obtain ⟨es, hv, accepted, -⟩ := Accepts.object h
  exact ⟨es, hv, accepted⟩

/-- What the check of a map made of an object: an object with the same keys, entry by entry. -/
theorem forall₂_of_map {follow : Reference → Value → Path → Check Unit Value}
    {keys : Option Schema} {n : Value} {path : Path}
    (h : ((map s keys).checkWith follow v path).outcome = .ok n) :
    ∃ es ns, v = .object es ∧ n = .object ns ∧
      List.Forall₂ (fun e m : String × Value => m.1 = e.1 ∧
        ∃ p, (s.checkWith follow e.2 p).outcome = .ok m.2) es ns := by
  cases v with
  | object es =>
    simp only [checkWith, Check.outcome_bind, outcome_checkEntries] at h
    obtain ⟨ns, hns, h⟩ := Except.bind_eq_ok_iff.mp h
    obtain rfl := Except.ok.inj h
    refine ⟨es, ns, rfl, rfl, (Except.mapM_eq_ok_iff.mp hns).imp fun e m hm => ?_⟩
    obtain ⟨y, hy, rfl⟩ := Except.map_eq_ok_iff.mp hm
    obtain ⟨_, _, hy⟩ := Except.bind_eq_ok_iff.mp hy
    exact ⟨rfl, _, hy⟩
  | _ => simp [checkWith, Check.fail] at h

theorem Accepts.map {keys : Option Schema} (h : (map s keys).Accepts v) :
    ∃ es, v = .object es ∧ ∀ e ∈ es, s.Accepts e.2 := by
  obtain ⟨n, hn⟩ := accepts_iff.mp h
  obtain ⟨es, ns, hv, -, hns⟩ := forall₂_of_map hn
  refine ⟨es, hv, fun e he => ?_⟩
  obtain ⟨m, -, -, path, hm⟩ := hns.exists_right he
  exact accepts_of_outcome hm

/-! ### Variants -/

theorem checkVariant_eq (follow : Reference → Value → Path → Check Unit Value)
    (variants : List (String × Schema)) (kind : String) :
    checkVariant follow variants kind = (Entries.find? variants kind).map (checkWith follow) := by
  induction variants with
  | nil => rfl
  | cons e rest ih =>
    obtain ⟨k, s⟩ := e
    simp only [checkVariant, Entries.find?]
    split_ifs
    · rfl
    · exact ih

/-- The schema that a tagged object is checked by: its variant, or the fallback if it has none. -/
inductive Chooses (variants : List (String × Schema)) (fallback : Option Schema) (kind : Value) :
    Schema → Prop
  | variant {name : String} {s : Schema} (hkind : kind = .str name)
      (hs : Entries.find? variants name = some s) : Chooses variants fallback kind s
  | fallback {s : Schema} (hkind : kind.str?.bind (Entries.find? variants) = none)
      (hs : fallback = some s) : Chooses variants fallback kind s

/-- The check of a tagged object is a failure or the check by the schema that is chosen. -/
theorem checkWith_tagged (follow : Reference → Value → Path → Check Unit Value) (tag : String)
    (variants : List (String × Schema)) (fallback : Option Schema) (v : Value) (path : Path) :
    (∃ place problem,
      (tagged tag variants fallback).checkWith follow v path = Check.fail place problem) ∨
      ∃ (es : Entries Value) (kind : Value) (s : Schema),
        v = .object es ∧ es.find? tag = some kind ∧ Chooses variants fallback kind s ∧
          (tagged tag variants fallback).checkWith follow v path = s.checkWith follow v path := by
  cases v with
  | object es =>
    simp only [checkWith]
    cases hkind : Entries.find? es tag with
    | none => exact .inl ⟨_, _, rfl⟩
    | some kind =>
      have chosen : kind.str?.bind (checkVariant follow variants) =
          (kind.str?.bind (Entries.find? variants)).map (checkWith follow) := by
        cases kind.str? with
        | none => rfl
        | some name => exact checkVariant_eq follow variants name
      simp only [chosen]
      cases hvariant : kind.str?.bind (Entries.find? variants) with
      | some s =>
        obtain ⟨name, hname, hs⟩ := Option.bind_eq_some_iff.mp hvariant
        exact .inr ⟨es, kind, s, rfl, hkind, .variant (Value.eq_of_str?_eq_some hname) hs, rfl⟩
      | none =>
        cases fallback with
        | none => exact .inl ⟨_, _, rfl⟩
        | some s => exact .inr ⟨es, kind, s, rfl, hkind, .fallback hvariant rfl, rfl⟩
  | _ => exact .inl ⟨_, _, rfl⟩

/-- A tagged object is checked by the schema that is chosen. -/
theorem Chooses.checkWith_eq {variants : List (String × Schema)} {fallback : Option Schema}
    {kind : Value} {s : Schema} (h : Chooses variants fallback kind s)
    (follow : Reference → Value → Path → Check Unit Value) {tag : String} {es : Entries Value}
    (hkind : es.find? tag = some kind) (path : Path) :
    (tagged tag variants fallback).checkWith follow (.object es) path =
      s.checkWith follow (.object es) path := by
  cases h with
  | variant hname hs => simp [checkWith, hkind, hname, Value.str?, checkVariant_eq, hs]
  | fallback none hs =>
    have unknown : kind.str?.bind (checkVariant follow variants) = .none := by
      cases hname : kind.str? with
      | none => rfl
      | some name =>
        rw [hname, Option.bind_some] at none
        rw [Option.bind_some, checkVariant_eq, none, Option.map_none]
    simp [checkWith, hkind, unknown, hs, checkFallback]

/-- The choice depends on the text of the tag alone. -/
theorem Chooses.congr {variants : List (String × Schema)} {fallback : Option Schema}
    {kind kind' : Value} {s : Schema} (h : Chooses variants fallback kind s)
    (same : kind.str? = kind'.str?) : Chooses variants fallback kind' s := by
  cases h with
  | variant hname hs =>
    subst hname
    exact .variant (Value.eq_of_str?_eq_some same.symm) hs
  | fallback none hs => exact .fallback (same ▸ none) hs

theorem Accepts.tagged {tag : String} {variants : List (String × Schema)}
    {fallback : Option Schema} (h : (tagged tag variants fallback).Accepts v) :
    ∃ (es : Entries Value) (kind : Value) (s : Schema),
      v = .object es ∧ es.find? tag = some kind ∧ Chooses variants fallback kind s ∧
        s.Accepts v := by
  obtain ⟨n, hn⟩ := accepts_iff.mp h
  rcases checkWith_tagged unfollowed tag variants fallback v [] with
    ⟨_, _, failed⟩ | ⟨es, kind, s, hv, hkind, chosen, same⟩
  · simp [failed, Check.fail] at hn
  · rw [same] at hn
    exact ⟨es, kind, s, hv, hkind, chosen, accepts_of_outcome hn⟩

end Schema

end Lexicon
