import Lexicon.Proofs.Schema.Plain
import Lexicon.Proofs.Value.Reordered

/-!
# Checks that ignore the order of entries

Two checks agree if they end with related results, with failures that are in one place and say the
same, or with the same fault. A schema ignores the order of entries if its checks of two values that
differ in nothing else agree. Main statements: one lemma for each kind of node that a definition
compiles to; a map and an object with rules for undeclared keys check these in the order in which
they are given, and are not among them. Which failure they find first depends on that order, but
not whether they find one: a plain schema that accepts a value accepts it in any order.
-/

namespace Lexicon

/-! ### Checks that agree -/

namespace Check

variable {α β γ δ : Type}

/-- Two outcomes that agree. -/
inductive Agree (R : α → β → Prop) : Except Fault α → Except Fault β → Prop
  | ok {a : α} {b : β} (h : R a b) : Agree R (.ok a) (.ok b)
  | failure {f g : Failure} (path : f.path = g.path)
      (message : f.problem.message = g.problem.message) :
      Agree R (.error (.invalid f)) (.error (.invalid g))
  | fault (e : Fault) : Agree R (.error e) (.error e)

variable {R : α → β → Prop} {S : γ → δ → Prop} {x : Except Fault α} {y : Except Fault β}

theorem Agree.refl {R : α → α → Prop} (hR : ∀ a, R a a) (x : Except Fault α) : Agree R x x := by
  cases x with
  | ok a => exact .ok (hR a)
  | error e => exact .fault e

theorem Agree.exists_of_ok {a : α} (h : Agree R (.ok a) y) : ∃ b, y = .ok b ∧ R a b := by
  cases h with
  | ok h => exact ⟨_, rfl, h⟩

theorem Agree.bind {f : α → Except Fault γ} {g : β → Except Fault δ} (h : Agree R x y)
    (hf : ∀ a b, R a b → Agree S (f a) (g b)) : Agree S (x >>= f) (y >>= g) := by
  cases h with
  | ok h => exact hf _ _ h
  | failure path message => exact .failure path message
  | fault e => exact .fault e

theorem Agree.map {f : α → γ} {g : β → δ} (h : Agree R x y) (hf : ∀ a b, R a b → S (f a) (g b)) :
    Agree S (f <$> x) (g <$> y) := by
  cases h with
  | ok h => exact .ok (hf _ _ h)
  | failure path message => exact .failure path message
  | fault e => exact .fault e

theorem Agree.mapM {f : γ → Except Fault α} {g : δ → Except Fault β} {xs : List γ} {ys : List δ}
    (h : List.Forall₂ (fun x y => Agree R (f x) (g y)) xs ys) :
    Agree (List.Forall₂ R) (xs.mapM f) (ys.mapM g) := by
  induction h with
  | nil => exact .ok .nil
  | cons h _ ih =>
    rw [List.mapM_cons, List.mapM_cons]
    exact h.bind fun _ _ hab => ih.bind fun _ _ hrest => .ok (.cons hab hrest)

/-- Choices agree if their checks do, and if the last failure does not enter into what they say. -/
theorem Agree.oneOf {R : α → α → Prop} {xs ys : List (Check Unit α)}
    (h : List.Forall₂ (fun x y => Agree R x.outcome y.outcome) xs ys) (path : Path)
    {problem : Option Failure → Problem}
    (worded : ∀ last last', (problem last).message = (problem last').message)
    (last last' : Option Failure) :
    Agree R (Check.oneOf last xs path problem).outcome
      (Check.oneOf last' ys path problem).outcome := by
  induction h generalizing last last' with
  | nil => exact .failure rfl (worded last last')
  | @cons x y _ _ hxy _ ih =>
    rw [outcome_oneOf_cons, outcome_oneOf_cons]
    generalize x.outcome = x' at hxy ⊢
    generalize y.outcome = y' at hxy ⊢
    cases hxy with
    | ok h => exact .ok h
    | failure => exact ih _ _
    | fault e =>
      cases e with
      | invalid f => exact ih _ _
      | _ => exact .fault _

end Check

open Check (Agree)

namespace Schema

variable (follow : Reference → Value → Path → Check Unit Value)

/-- A schema checks values alike that differ only in the order of entries. -/
def IgnoresOrder (s : Schema) : Prop :=
  ∀ ⦃v w : Value⦄, v.DistinctKeys → v.Reordered w → ∀ path : Path,
    Agree Value.Reordered (s.checkWith follow v path).outcome (s.checkWith follow w path).outcome

variable {follow} {s : Schema}

/-! ### Single values -/

theorem Scalar.ignoresOrder (h : s.Scalar) : s.IgnoresOrder follow := by
  intro v w _ reordered path
  cases h with
  | literal value =>
    rw [checkWith, checkWith, reordered.identical_eq]
    split_ifs
    · exact .ok reordered
    · exact .failure rfl rfl
  | enum values =>
    have same : v.identical = w.identical := funext reordered.identical_eq
    rw [checkWith, checkWith, same]
    split_ifs
    · exact .ok reordered
    · exact .failure rfl rfl
  | _ =>
    cases reordered with
    | refl => exact .refl .refl _
    | list | object => exact .failure rfl rfl

theorem ignoresOrder_any : IgnoresOrder follow .any :=
  fun _ _ _ reordered _ => .ok reordered

theorem ignoresOrder_noop : IgnoresOrder follow .noop :=
  fun _ _ _ reordered _ => .ok reordered

theorem agree_readBytes {es ms : Entries Value}
    (h : Option.Rel Value.Reordered (es.find? "$bytes") (ms.find? "$bytes")) (path : Path) :
    Agree Eq (readBytes (.object es) path : Check Unit _).outcome
      (readBytes (.object ms) path : Check Unit _).outcome := by
  simp only [readBytes]
  generalize es.find? "$bytes" = x at h ⊢
  generalize ms.find? "$bytes" = y at h ⊢
  cases h with
  | none => exact .failure rfl rfl
  | some reordered =>
    cases reordered with
    | refl => exact .refl (fun _ => rfl) _
    | list | object => exact .failure rfl rfl

theorem ignoresOrder_bytes (bounds : Bounds) : IgnoresOrder follow (.bytes bounds) := by
  intro v w distinct reordered path
  cases reordered with
  | refl => exact .refl .refl _
  | list => exact .failure rfl rfl
  | object order entries =>
    rw [checkWith, checkWith, Check.outcome_bind, Check.outcome_bind]
    apply (agree_readBytes (Entries.rel_find?_of_perm distinct.self order entries _) path).bind
    rintro b _ rfl
    exact .refl .refl _

/-! ### Marks and arrays -/

theorem IgnoresOrder.required (h : s.IgnoresOrder follow) : IgnoresOrder follow (.required s) := by
  intro v w distinct reordered path
  rw [checkWith, checkWith]
  exact h distinct reordered path

theorem IgnoresOrder.withDefault (h : s.IgnoresOrder follow) (value : Value) :
    IgnoresOrder follow (.withDefault s value) := by
  intro v w distinct reordered path
  rw [checkWith, checkWith]
  exact h distinct reordered path

theorem IgnoresOrder.nullable (h : s.IgnoresOrder follow) : IgnoresOrder follow (.nullable s) := by
  intro v w distinct reordered path
  cases reordered with
  | refl => exact .refl .refl _
  | list items =>
    simp only [checkWith]
    exact h distinct (.list items) path
  | object order entries =>
    simp only [checkWith]
    exact h distinct (.object order entries) path

private theorem agree_checkItems (h : s.IgnoresOrder follow) {xs ys : List Value}
    (distinct : ∀ x ∈ xs, x.DistinctKeys) (items : List.Forall₂ Value.Reordered xs ys) (path : Path)
    (i : Nat) : Agree (List.Forall₂ Value.Reordered)
      (checkItems (checkWith follow s) path i xs).outcome
      (checkItems (checkWith follow s) path i ys).outcome := by
  induction items generalizing i with
  | nil => exact .ok .nil
  | cons reordered _ ih =>
    rw [List.forall_mem_cons] at distinct
    simp only [checkItems, Check.outcome_bind]
    apply (h distinct.1 reordered _).bind
    intro x y hxy
    apply (ih distinct.2 _).bind
    intro xs ys hrest
    exact .ok (.cons hxy hrest)

theorem IgnoresOrder.array (h : s.IgnoresOrder follow) (bounds : Bounds) :
    IgnoresOrder follow (.array s bounds) := by
  intro v w distinct reordered path
  cases reordered with
  | refl => exact .refl .refl _
  | list items =>
    simp only [checkWith, Check.outcome_bind, items.length_eq]
    apply (Agree.refl (fun _ => rfl) _).bind (R := Eq)
    rintro _ _ rfl
    apply (agree_checkItems h distinct.item items path 0).bind
    intro xs ys checked
    exact .ok (.list checked)
  | object => exact .failure rfl rfl

/-! ### Objects -/

theorem IgnoresOrder.part (h : s.IgnoresOrder follow) {es ms : Entries Value}
    (distinct : (Value.object es).DistinctKeys) {key : String}
    (found : Option.Rel Value.Reordered (es.find? key) (ms.find? key)) (path : Path) :
    Agree (Option.Rel (Entries.Under Value.Reordered)) (Schema.part follow es path key s)
      (Schema.part follow ms path key s) := by
  cases hx : es.find? key with
  | some x =>
    rw [hx] at found
    cases hy : ms.find? key with
    | none =>
      rw [hy] at found
      cases found
    | some y =>
      rw [hy] at found
      cases found with
      | some reordered =>
        rw [part_of_found hx, part_of_found hy]
        apply (h (distinct.find? hx) reordered _).map
        intro x y hxy
        exact .some (.intro key hxy)
  | none =>
    rw [hx] at found
    cases hy : ms.find? key with
    | some y =>
      rw [hy] at found
      cases found
    | none =>
      have same : Schema.part follow es path key s = Schema.part follow ms path key s := by
        rw [Schema.part, Schema.part, hx, hy]
      rw [same]
      apply Agree.refl
      rintro (_ | e)
      · exact .none
      · exact .some (.intro e.1 (.refl e.2))

/-- The parts that are there are related. -/
private theorem forall₂_filterMap_id {α β : Type} {R : α → β → Prop} {ps : List (Option α)}
    {qs : List (Option β)} (h : List.Forall₂ (Option.Rel R) ps qs) :
    List.Forall₂ R (ps.filterMap id) (qs.filterMap id) := by
  induction h with
  | nil => exact .nil
  | cons h _ ih =>
    cases h with
    | none => exact ih
    | some h => exact .cons h ih

theorem ignoresOrder_fields {fields : List (String × Schema)}
    (h : ∀ e ∈ fields, e.2.IgnoresOrder follow) : IgnoresOrder follow (.fields fields) := by
  intro v w distinct reordered path
  cases reordered with
  | refl => exact .refl .refl _
  | list => exact .failure rfl rfl
  | object order entries =>
    rw [outcome_fields, outcome_fields]
    apply (Agree.mapM (List.forall₂_same.mpr fun e he => ?_)).map
    · intro ps qs parts
      exact .object ((order.filter _).append_left _) <| List.rel_append (forall₂_filterMap_id parts)
        (Entries.filter_of_under (fun key => !Entries.has fields key) entries)
    · exact (h e he).part distinct (Entries.rel_find?_of_perm distinct.self order entries e.1) path

/-! ### Choices -/

theorem ignoresOrder_anyOf {alternatives : List Schema} {description : String}
    (h : ∀ s ∈ alternatives, s.IgnoresOrder follow) :
    IgnoresOrder follow (.anyOf alternatives description) := by
  intro v w distinct reordered path
  rw [checkWith_anyOf, checkWith_anyOf, checkAll_eq_map, checkAll_eq_map]
  refine Agree.oneOf ?_ path (fun _ _ => rfl) none none
  rw [List.forall₂_map_left_iff, List.forall₂_map_right_iff, List.forall₂_same]
  exact fun s hs => h s hs distinct reordered path

/-- A union ignores the order of entries if its targets do. -/
theorem ignoresOrder_union {targets : List Reference}
    (h : ∀ t ∈ targets, (Schema.ref t).IgnoresOrder follow) :
    IgnoresOrder follow (.union targets) := by
  intro v w distinct reordered path
  cases reordered with
  | refl => exact .refl .refl _
  | list => exact .failure rfl rfl
  | object order entries =>
    rw [checkWith_union, checkWith_union]
    split_ifs
    · exact .ok (.object order entries)
    · refine Agree.oneOf ?_ path (fun _ _ => rfl) none none
      rw [List.forall₂_map_left_iff, List.forall₂_map_right_iff, List.forall₂_same]
      exact fun t ht => h t ht distinct (.object order entries) path

/-! ### Links and blobs -/

theorem ignoresOrder_linkSchema : IgnoresOrder follow Field.linkSchema := by
  apply ignoresOrder_fields
  simp only [List.forall_mem_singleton]
  exact (Scalar.string _).ignoresOrder.required

theorem ignoresOrder_blobSchema (pattern : MediaPattern) (maxSize : Option Value) :
    IgnoresOrder follow (Field.blobSchema pattern maxSize) := by
  apply ignoresOrder_anyOf
  simp only [List.forall_mem_cons]
  refine ⟨ignoresOrder_fields ?_, ignoresOrder_fields ?_, List.forall_mem_nil _⟩
  · exact forall_mem_blobFields (P := IgnoresOrder follow) (fun h => h.ignoresOrder.required)
      ignoresOrder_linkSchema.required pattern maxSize
  · exact forall_mem_olderBlobFields (P := IgnoresOrder follow) (fun h => h.ignoresOrder.required)
      pattern

/-! ### Plain schemas -/

variable (follow s) in
/-- A schema that accepts a value accepts it with its entries in any order, and makes the same of it
up to the order of entries. -/
def AcceptsReordered : Prop :=
  ∀ ⦃v w n : Value⦄, v.DistinctKeys → v.Reordered w → ∀ path : Path,
    (s.checkWith follow v path).outcome = .ok n →
      ∃ m, (s.checkWith follow w path).outcome = .ok m ∧ n.Reordered m

theorem IgnoresOrder.acceptsReordered (h : s.IgnoresOrder follow) : s.AcceptsReordered follow := by
  intro v w n distinct reordered path hn
  have agree := h distinct reordered path
  rw [hn] at agree
  exact agree.exists_of_ok

private theorem exists_checkItems (h : s.AcceptsReordered follow) {xs ys ns : List Value}
    (distinct : ∀ x ∈ xs, x.DistinctKeys) (items : List.Forall₂ Value.Reordered xs ys)
    {path : Path} {i : Nat} (hn : (checkItems (checkWith follow s) path i xs).outcome = .ok ns) :
    ∃ ms, (checkItems (checkWith follow s) path i ys).outcome = .ok ms ∧
      List.Forall₂ Value.Reordered ns ms := by
  induction items generalizing i ns with
  | nil =>
    obtain rfl := Except.ok.inj hn
    exact ⟨[], rfl, .nil⟩
  | cons reordered _ ih =>
    rw [List.forall_mem_cons] at distinct
    simp only [checkItems, Check.outcome_bind] at hn
    obtain ⟨n, hfirst, hn⟩ := Except.bind_eq_ok_iff.mp hn
    obtain ⟨ns, hrest, hn⟩ := Except.bind_eq_ok_iff.mp hn
    obtain rfl := Except.ok.inj hn
    obtain ⟨m, hm, first⟩ := h distinct.1 reordered _ hfirst
    obtain ⟨ms, hms, rest⟩ := ih distinct.2 hrest
    refine ⟨m :: ms, ?_, .cons first rest⟩
    simp only [checkItems, Check.outcome_bind, hm, hms, Except.ok_bind]
    rfl

theorem AcceptsReordered.array (h : s.AcceptsReordered follow) (bounds : Bounds) :
    AcceptsReordered follow (.array s bounds) := by
  intro v w n distinct reordered path hn
  cases reordered with
  | refl => exact ⟨n, hn, .refl n⟩
  | list items =>
    simp only [checkWith, Check.outcome_bind] at hn ⊢
    obtain ⟨_, hbounds, hn⟩ := Except.bind_eq_ok_iff.mp hn
    obtain ⟨ns, hns, hn⟩ := Except.bind_eq_ok_iff.mp hn
    obtain rfl := Except.ok.inj hn
    obtain ⟨ms, hms, checked⟩ := exists_checkItems h distinct.item items hns
    refine ⟨.list ms, ?_, .list checked⟩
    rw [← items.length_eq, hbounds, Except.ok_bind, hms, Except.ok_bind]
    rfl
  | object => cases hn

/-- Entries that are checked one by one may be given in any order. -/
private theorem exists_checked (check : String → Value → Except Fault Value)
    {es zs ms ns : Entries Value} (order : es.Perm zs)
    (entries : List.Forall₂ (Entries.Under Value.Reordered) zs ms)
    (h : ∀ e ∈ es, ∀ y n, e.2.Reordered y → check e.1 e.2 = .ok n →
      ∃ m, check e.1 y = .ok m ∧ n.Reordered m)
    (hn : (es.mapM fun e => (fun y => (e.1, y)) <$> check e.1 e.2) = .ok ns) :
    ∃ ks ls, (ms.mapM fun e => (fun y => (e.1, y)) <$> check e.1 e.2) = .ok ls ∧ ns.Perm ks ∧
      List.Forall₂ (Entries.Under Value.Reordered) ks ls := by
  have checked : List.Forall₂ (fun e n : String × Value => n.1 = e.1 ∧ check e.1 e.2 = .ok n.2)
      es ns := by
    refine (Except.mapM_eq_ok_iff.mp hn).imp fun e n hn => ?_
    obtain ⟨y, hy, rfl⟩ := Except.map_eq_ok_iff.mp hn
    exact ⟨rfl, hy⟩
  obtain ⟨ks, ls, hls, order', under⟩ := Entries.exists_of_perm
    (fun key x n => check key x = .ok n) (fun key x n => check key x = .ok n)
    order entries checked h
  refine ⟨ks, ls, Except.mapM_eq_ok_iff.mpr (hls.imp fun e l hl => ?_), order', under⟩
  rw [hl.2, ← hl.1]
  rfl

theorem outcome_map (s : Schema) (es : Entries Value) (path : Path) :
    ((Schema.map s none).checkWith follow (.object es) path).outcome =
      .object <$> es.mapM fun e => (fun y => (e.1, y)) <$>
        (s.checkWith follow e.2 (path ++ [.key e.1])).outcome := by
  simp [checkWith, outcome_checkEntries, checkKey]

theorem AcceptsReordered.map (h : s.AcceptsReordered follow) :
    AcceptsReordered follow (.map s none) := by
  intro v w n distinct reordered path hn
  cases reordered with
  | refl => exact ⟨n, hn, .refl n⟩
  | list => cases hn
  | @object es zs ms order entries =>
    rw [outcome_map] at hn ⊢
    obtain ⟨ns, hns, rfl⟩ := Except.map_eq_ok_iff.mp hn
    obtain ⟨ks, ls, hls, order', under⟩ := exists_checked
      (fun key x => (s.checkWith follow x (path ++ [Segment.key key])).outcome) order entries
      (fun e he _ _ reordered => h (distinct.entry e he) reordered _) hns
    exact ⟨.object ls, by rw [hls, Except.ok_map], .object order' under⟩

theorem AcceptsReordered.part (h : s.AcceptsReordered follow) {es ms : Entries Value}
    (distinct : (Value.object es).DistinctKeys) {key : String}
    (found : Option.Rel Value.Reordered (es.find? key) (ms.find? key)) {path : Path}
    {p : Option (String × Value)} (hp : Schema.part follow es path key s = .ok p) :
    ∃ q, Schema.part follow ms path key s = .ok q ∧
      Option.Rel (Entries.Under Value.Reordered) p q := by
  rcases found.none_or_some with ⟨hx, hy⟩ | ⟨x, y, hx, hy, reordered⟩
  · have same : Schema.part follow ms path key s = .ok p := by
      rw [← hp, Schema.part, Schema.part, hx, hy]
    refine ⟨p, same, ?_⟩
    cases p with
    | none => exact .none
    | some e => exact .some (.intro e.1 (.refl e.2))
  · rw [part_of_found hx] at hp
    obtain ⟨n, hn, rfl⟩ := Except.map_eq_ok_iff.mp hp
    obtain ⟨m, hm, made⟩ := h (distinct.find? hx) reordered _ hn
    exact ⟨some (key, m), by rw [part_of_found hy, hm, Except.ok_map], .some (.intro key made)⟩

private theorem exists_parts {fields : List (String × Schema)}
    (h : ∀ e ∈ fields, e.2.AcceptsReordered follow) {es ms : Entries Value}
    (distinct : (Value.object es).DistinctKeys)
    (found : ∀ key, Option.Rel Value.Reordered (es.find? key) (ms.find? key)) {path : Path}
    {ps : List (Option (String × Value))}
    (hps : (fields.mapM fun e => Schema.part follow es path e.1 e.2) = .ok ps) :
    ∃ qs, (fields.mapM fun e => Schema.part follow ms path e.1 e.2) = .ok qs ∧
      List.Forall₂ (Option.Rel (Entries.Under Value.Reordered)) ps qs := by
  rw [Except.mapM_eq_ok_iff] at hps
  induction hps with
  | nil => exact ⟨[], rfl, .nil⟩
  | cons hp _ ih =>
    obtain ⟨first, rest⟩ := List.forall_mem_cons.mp h
    obtain ⟨q, hq, related⟩ := first.part distinct (found _) hp
    obtain ⟨qs, hqs, parts⟩ := ih rest
    refine ⟨q :: qs, ?_, .cons related parts⟩
    rw [List.mapM_cons, hq, Except.ok_bind, hqs]
    rfl

theorem acceptsReordered_object {fields : List (String × Schema)} {extra : Option Schema}
    (h : ∀ e ∈ fields, e.2.AcceptsReordered follow)
    (others : ∀ s, extra = some s → s.AcceptsReordered follow) :
    AcceptsReordered follow (.object fields extra false) := by
  intro v w n distinct reordered path hn
  cases reordered with
  | refl => exact ⟨n, hn, .refl n⟩
  | list => cases hn
  | @object es zs ms order entries =>
    rw [outcome_object] at hn ⊢
    obtain ⟨ps, hps, hn⟩ := Except.bind_eq_ok_iff.mp hn
    obtain ⟨ns, hns, hn⟩ := Except.bind_eq_ok_iff.mp hn
    obtain rfl := Except.ok.inj hn
    obtain ⟨qs, hqs, parts⟩ := exists_parts h distinct
      (Entries.rel_find?_of_perm distinct.self order entries) hps
    have extras : ∀ e ∈ undeclared fields es, ∀ y n, e.2.Reordered y →
        (checkExtra follow extra false e.2 (path ++ [.key e.1])).outcome = .ok n →
          ∃ m, (checkExtra follow extra false y (path ++ [.key e.1])).outcome = .ok m ∧
            n.Reordered m := by
      intro e he y n reordered hn
      cases extra with
      | none =>
        obtain rfl := Except.ok.inj hn
        exact ⟨y, rfl, reordered⟩
      | some s => exact others s rfl (distinct.entry e (List.mem_filter.mp he).1) reordered _ hn
    obtain ⟨ks, ls, hls, order', under⟩ := exists_checked
      (fun key x => (checkExtra follow extra false x (path ++ [Segment.key key])).outcome)
      (order.filter _) (Entries.filter_of_under (fun key => !Entries.has fields key) entries)
      extras hns
    refine ⟨.object (qs.filterMap id ++ ls), ?_, .object (order'.append_left _)
      (List.rel_append (forall₂_filterMap_id parts) under)⟩
    rw [hqs, Except.ok_bind, undeclared, hls]
    rfl

theorem Plain.acceptsReordered (h : s.Plain) : s.AcceptsReordered follow := by
  induction h with
  | boolean => exact Scalar.boolean.ignoresOrder.acceptsReordered
  | integer => exact (Scalar.integer _).ignoresOrder.acceptsReordered
  | string => exact (Scalar.string _).ignoresOrder.acceptsReordered
  | literal => exact (Scalar.literal _).ignoresOrder.acceptsReordered
  | enum => exact (Scalar.enum _).ignoresOrder.acceptsReordered
  | array _ _ ih => exact ih.array _
  | map _ ih => exact ih.map
  | object _ _ ih ihOthers => exact acceptsReordered_object ih ihOthers
  | required _ ih => exact ih
  | tagged _ _ ih ihOthers =>
    intro v w n distinct reordered path hn
    rcases checkWith_tagged follow _ _ _ v path with
      ⟨_, _, failed⟩ | ⟨es, kind, s, rfl, hkind, chosen, same⟩
    · rw [failed] at hn
      cases hn
    · obtain ⟨_, ms, rfl, -⟩ := reordered.exists_of_object
      rcases (reordered.find? distinct.self _).none_or_some with
        ⟨hx, -⟩ | ⟨x, kind', hx, hkind', tags⟩
      · cases hkind.symm.trans hx
      · obtain rfl := Option.some.inj (hkind.symm.trans hx)
        rw [same] at hn
        rw [(chosen.congr tags.str?_eq).checkWith_eq follow hkind']
        cases chosen with
        | variant _ hs => exact ih _ (Entries.mem_of_find?_eq_some hs) distinct reordered path hn
        | fallback _ hs => exact ihOthers _ hs distinct reordered path hn

end Schema

end Lexicon
