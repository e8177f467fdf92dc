import Lexicon.Proofs.Decimal.Exact
import Lexicon.Proofs.Json.Decoded
import Lexicon.Value.Access

/-!
# Equal values

Values are equal as data whatever their numbers are written as, and whatever the order of the
entries of their objects. Main statements: equality goes through between JSON values, and equal
values compare alike with every whole number and have equal elements.
-/

namespace Lexicon

namespace Value

variable {a b c : Value}

/-! ### Numbers -/

/-- The number that a value is, unless it is an infinite double. -/
def rational? : Value → Option ℚ
  | .bool b => some (if b then 1 else 0)
  | .int n => some n
  | .float x => if x.isFinite then some x.value else none
  | _ => none

/-- The fraction of a number is its value, or that of an infinite double. -/
theorem rational?_of_number? {m : Int} {d : Nat} (h : a.number? = some (m, d)) :
    (0 < d ∧ a.rational? = some ((m : ℚ) / d)) ∨
      (d = 0 ∧ m ≠ 0 ∧ a.rational? = none ∧ ∃ x, a = .float x) := by
  cases a with
  | bool b =>
    obtain ⟨rfl, rfl⟩ := Prod.mk.inj (Option.some.inj h)
    left
    cases b <;> simp [rational?]
  | int n =>
    obtain ⟨rfl, rfl⟩ := Prod.mk.inj (Option.some.inj h)
    left
    simp [rational?]
  | float x =>
    have fraction : x.fraction = (m, d) := Option.some.inj h
    by_cases finite : x.isFinite = true
    · obtain ⟨positive, value⟩ := x.fraction_of_finite finite
      rw [fraction] at positive value
      left
      rw [rational?, if_pos finite, ← value]
      exact ⟨positive, rfl⟩
    · obtain ⟨zero, sign⟩ := x.fraction_of_infinite finite
      rw [fraction] at zero sign
      right
      rw [rational?, if_neg finite]
      exact ⟨zero, sign, rfl, x, rfl⟩
  | _ => cases h

theorem exists_number?_of_rational? {q : ℚ} (h : a.rational? = some q) :
    ∃ m d, a.number? = some (m, d) ∧ 0 < d ∧ (m : ℚ) / d = q := by
  have number : ∃ m d, a.number? = some (m, d) := by
    cases a with
    | bool | int | float => exact ⟨_, _, rfl⟩
    | _ => cases h
  obtain ⟨m, d, hm⟩ := number
  rcases rational?_of_number? hm with ⟨positive, exact⟩ | ⟨-, -, none, -⟩
  · exact ⟨m, d, hm, positive, Option.some.inj (exact.symm.trans h)⟩
  · rw [none] at h
    cases h

theorem sameNumber_float_iff {x y : Binary64} : (Value.float x).sameNumber (.float y) = true ↔
    x = y ∨ x.magnitude = 0 ∧ y.magnitude = 0 := by
  simp [sameNumber]

theorem sameNumber_iff_of_not_float (h : ∀ x y, a = .float x → b ≠ .float y) :
    a.sameNumber b = true ↔ ∃ m c n d, a.number? = some (m, c) ∧ b.number? = some (n, d) ∧
      m * d = n * c := by
  unfold sameNumber
  split
  · next x y => exact absurd rfl (h x y rfl)
  · split
    · next m c n d hm hn => simp [hm, hn]
    · next none =>
      constructor
      · nofun
      · rintro ⟨m, c, n, d, hm, hn, -⟩
        exact absurd hn (none m c n d hm)

theorem rational?_float_iff {x : Binary64} {q : ℚ} :
    (Value.float x).rational? = some q ↔ x.isFinite = true ∧ x.value = q := by
  rw [rational?]
  split_ifs with finite
  · simp [finite]
  · simp [finite]

/-- Two numbers are equal if they have the same value, or are the same double. -/
theorem sameNumber_iff : a.sameNumber b = true ↔
    (∃ q, a.rational? = some q ∧ b.rational? = some q) ∨ ∃ x, a = .float x ∧ b = .float x := by
  by_cases floats : ∃ x y, a = .float x ∧ b = .float y
  · obtain ⟨x, y, rfl, rfl⟩ := floats
    rw [sameNumber_float_iff]
    constructor
    · rintro (rfl | ⟨hx, hy⟩)
      · exact .inr ⟨x, rfl, rfl⟩
      · have finite {z : Binary64} (zero : z.magnitude = 0) : z.isFinite = true := by
          by_contra infinite
          exact z.magnitude_ne_zero_of_infinite infinite zero
        left
        exact ⟨0, rational?_float_iff.mpr ⟨finite hx, Binary64.value_eq_zero_iff.mpr hx⟩,
          rational?_float_iff.mpr ⟨finite hy, Binary64.value_eq_zero_iff.mpr hy⟩⟩
    · rintro (⟨q, hq, hq'⟩ | ⟨z, hz, hz'⟩)
      · obtain ⟨hx, rfl⟩ := rational?_float_iff.mp hq
        obtain ⟨hy, same⟩ := rational?_float_iff.mp hq'
        exact (Binary64.value_eq_iff hx hy).mp same.symm
      · rw [Value.float.inj hz, Value.float.inj hz']
        exact .inl rfl
  · have apart : ∀ x y, a = .float x → b ≠ .float y := by
      intro x y hx hy
      exact floats ⟨x, y, hx, hy⟩
    rw [sameNumber_iff_of_not_float apart]
    constructor
    · rintro ⟨m, c, n, d, hm, hn, cross⟩
      left
      -- an infinite double is equal to no other number
      rcases rational?_of_number? hm with ⟨hc, ha⟩ | ⟨rfl, hne, -, x, hx⟩ <;>
        rcases rational?_of_number? hn with ⟨hd, hb⟩ | ⟨rfl, hne', -, y, hy⟩
      · refine ⟨_, ha, ?_⟩
        rw [hb, Option.some.injEq, div_eq_div_iff (by positivity) (by positivity)]
        exact_mod_cast cross.symm
      · rw [Nat.cast_zero, mul_zero] at cross
        rcases mul_eq_zero.mp cross.symm with zero | zero
        · exact absurd zero hne'
        · omega
      · rw [Nat.cast_zero, mul_zero] at cross
        rcases mul_eq_zero.mp cross with zero | zero
        · exact absurd zero hne
        · omega
      · exact absurd hy (apart x y hx)
    · rintro (⟨q, ha, hb⟩ | ⟨x, hx, hy⟩)
      · obtain ⟨m, c, hm, hc, rfl⟩ := exists_number?_of_rational? ha
        obtain ⟨n, d, hn, hd, same⟩ := exists_number?_of_rational? hb
        refine ⟨m, c, n, d, hm, hn, ?_⟩
        rw [div_eq_div_iff (by positivity) (by positivity)] at same
        exact_mod_cast same.symm
      · exact absurd hy (apart x x hx)

theorem sameNumber_symm (h : a.sameNumber b = true) : b.sameNumber a = true := by
  rw [sameNumber_iff] at h ⊢
  rcases h with ⟨q, ha, hb⟩ | ⟨x, rfl, rfl⟩
  · exact .inl ⟨q, hb, ha⟩
  · exact .inr ⟨x, rfl, rfl⟩

theorem sameNumber_trans (hab : a.sameNumber b = true) (hbc : b.sameNumber c = true) :
    a.sameNumber c = true := by
  rw [sameNumber_iff] at hab hbc ⊢
  rcases hab with ⟨q, ha, hb⟩ | ⟨x, rfl, rfl⟩
  · rcases hbc with ⟨q', hb', hc⟩ | ⟨x, rfl, rfl⟩
    · obtain rfl := Option.some.inj (hb.symm.trans hb')
      exact .inl ⟨q, ha, hc⟩
    · exact .inl ⟨q, ha, hb⟩
  · exact hbc

/-! ### Equality by kinds -/

/-- A truth value, an integer or a double. -/
def IsNumber (v : Value) : Prop :=
  v.number?.isSome

theorem isNumber_of_sameNumber (h : a.sameNumber b = true) : a.IsNumber ∧ b.IsNumber := by
  rcases sameNumber_iff.mp h with ⟨q, ha, hb⟩ | ⟨x, rfl, rfl⟩
  · obtain ⟨_, _, hm, -⟩ := exists_number?_of_rational? ha
    obtain ⟨_, _, hn, -⟩ := exists_number?_of_rational? hb
    simp [IsNumber, hm, hn]
  · exact ⟨rfl, rfl⟩

/-- The ways in which two values can be equal. -/
inductive Same : Value → Value → Prop
  | null : Same .null .null
  | str (s : String) : Same (.str s) (.str s)
  | bytes (b : List UInt8) : Same (.bytes b) (.bytes b)
  | list {xs ys : List Value} (items : sameItems xs ys = true) : Same (.list xs) (.list ys)
  | tuple {xs ys : List Value} (items : sameItems xs ys = true) : Same (.tuple xs) (.tuple ys)
  | object {xs ys : Entries Value} (length : xs.length = ys.length)
      (entries : sameEntries xs ys = true) : Same (.object xs) (.object ys)
  | record {c d : RecordClass} {xs ys : List (String × Value)} (id : c.id = d.id)
      (attributes : sameAttributes c.slots xs ys = true) : Same (.record c xs) (.record d ys)
  | number {a b : Value} (h : a.sameNumber b = true) : Same a b

theorem same_iff : a.same b = true ↔ Same a b := by
  constructor
  · intro h
    unfold same at h
    split at h
    · exact .null
    · exact beq_iff_eq.mp h ▸ .str _
    · exact beq_iff_eq.mp h ▸ .bytes _
    · exact .list h
    · exact .tuple h
    · rw [Bool.and_eq_true, beq_iff_eq] at h
      exact .object h.1 h.2
    · rw [Bool.and_eq_true, beq_iff_eq] at h
      exact .record h.1 h.2
    · exact .number h
  · intro h
    cases h with
    | number h =>
      obtain ⟨ha, -⟩ := isNumber_of_sameNumber h
      unfold same
      -- the values of every kind that is compared before are no numbers
      split <;> first | exact h | cases ha
    | _ => simp_all [same]

theorem sameItems_iff {xs ys : List Value} :
    sameItems xs ys = true ↔ List.Forall₂ (fun x y => x.same y = true) xs ys := by
  induction xs generalizing ys with
  | nil => cases ys <;> simp [sameItems]
  | cons x xs ih =>
    cases ys with
    | nil => simp [sameItems]
    | cons y ys => simp [sameItems, ih]

theorem sameEntries_iff {xs ys : Entries Value} :
    sameEntries xs ys = true ↔ ∀ e ∈ xs, ∃ y, ys.find? e.1 = some y ∧ e.2.same y = true := by
  induction xs with
  | nil => simp [sameEntries]
  | cons e xs ih =>
    obtain ⟨k, x⟩ := e
    simp only [sameEntries, Bool.and_eq_true, ih, List.forall_mem_cons]
    cases Entries.find? ys k <;> simp

theorem same_str_iff {t : String} : (Value.str t).same b = true ↔ b = .str t := by
  rw [same_iff]
  constructor
  · intro h
    cases h with
    | str => rfl
    | number h => cases (isNumber_of_sameNumber h).1
  · rintro rfl
    exact .str t

theorem same_of_str_right {t : String} (h : a.same (.str t) = true) : a = .str t := by
  cases same_iff.mp h with
  | str => rfl
  | number h => cases (isNumber_of_sameNumber h).2

/-- Equality goes through a JSON value. The induction is on that value. -/
theorem same_trans (hb : b.IsJson) (hab : a.same b = true) (hbc : b.same c = true) :
    a.same c = true := by
  induction hb generalizing a c with
  | null =>
    cases same_iff.mp hab with
    | null => exact hbc
    | number h => cases (isNumber_of_sameNumber h).2
  | str t =>
    cases same_iff.mp hab with
    | str => exact hbc
    | number h => cases (isNumber_of_sameNumber h).2
  | bool | int | float =>
    cases same_iff.mp hab with
    | number first =>
      cases same_iff.mp hbc with
      | number second => exact same_iff.mpr (.number (sameNumber_trans first second))
  | @list ys _ ih =>
    cases same_iff.mp hab with
    | number h => cases (isNumber_of_sameNumber h).2
    | list first =>
      cases same_iff.mp hbc with
      | number h => cases (isNumber_of_sameNumber h).1
      | list second =>
        rw [sameItems_iff] at first second
        refine same_iff.mpr (.list (sameItems_iff.mpr (first.comp second ?_)))
        intro x y hy z
        exact ih y hy
  | @object ys _ ih =>
    cases same_iff.mp hab with
    | number h => cases (isNumber_of_sameNumber h).2
    | object length first =>
      cases same_iff.mp hbc with
      | number h => cases (isNumber_of_sameNumber h).1
      | object length' second =>
        rw [sameEntries_iff] at first second
        refine same_iff.mpr (.object (length.trans length') (sameEntries_iff.mpr ?_))
        intro e he
        obtain ⟨y, hy, hxy⟩ := first e he
        have hmem := Entries.mem_of_find?_eq_some hy
        obtain ⟨z, hz, hyz⟩ := second _ hmem
        exact ⟨z, hz, ih _ hmem hxy hyz⟩

/-- A decoded value is equal to itself. The induction is on how it is made up. -/
theorem Decoded.same_self (h : a.Decoded) : a.same a = true := by
  obtain ⟨json, distinct⟩ := h
  induction json with
  | null | str => simp [same]
  | bool | int => simp [same, sameNumber, number?]
  | float => exact same_iff.mpr (.number (sameNumber_float_iff.mpr (.inl rfl)))
  | list _ ih =>
    refine same_iff.mpr (.list (sameItems_iff.mpr (List.forall₂_same.mpr fun x hx => ?_)))
    exact ih x hx (distinct.item x hx)
  | @object es _ ih =>
    refine same_iff.mpr (.object rfl (sameEntries_iff.mpr fun e he => ?_))
    have found : es.find? e.1 = some e.2 := (Entries.find?_eq_some_iff distinct.self).mpr he
    exact ⟨e.2, found, ih e he (distinct.find? found)⟩

/-! ### What equal values have in common -/

theorem null_iff_of_same (h : a.same b = true) : a = .null ↔ b = .null := by
  cases same_iff.mp h with
  | number h =>
    obtain ⟨ha, hb⟩ := isNumber_of_sameNumber h
    constructor
    · rintro rfl
      cases ha
    · rintro rfl
      cases hb
  | _ => simp

theorem below?_of_rational? {q : ℚ} (h : a.rational? = some q) (n : Int) :
    (Value.int n).below? a = some (decide ((n : ℚ) < q)) ∧
      a.below? (.int n) = some (decide (q < n)) := by
  obtain ⟨m, d, hm, positive, rfl⟩ := exists_number?_of_rational? h
  have positive : (0 : ℚ) < d := by exact_mod_cast positive
  have whole : (Value.int n).number? = some (n, 1) := rfl
  constructor
  · rw [below?, hm, whole]
    dsimp only
    rw [Option.some.injEq, decide_eq_decide, lt_div_iff₀ positive, Nat.cast_one, mul_one]
    norm_cast
  · rw [below?, hm, whole]
    dsimp only
    rw [Option.some.injEq, decide_eq_decide, div_lt_iff₀ positive, Nat.cast_one, mul_one]
    norm_cast

/-- Equal values compare alike with every integer, if they can be compared with it at all. -/
theorem below?_of_same (h : a.same b = true) (n : Int) :
    (Value.int n).below? a = (Value.int n).below? b ∧ a.below? (.int n) = b.below? (.int n) := by
  cases same_iff.mp h with
  | number h =>
    rcases sameNumber_iff.mp h with ⟨q, ha, hb⟩ | ⟨x, rfl, rfl⟩
    · obtain ⟨below, above⟩ := below?_of_rational? ha n
      obtain ⟨below', above'⟩ := below?_of_rational? hb n
      exact ⟨below.trans below'.symm, above.trans above'.symm⟩
    · exact ⟨rfl, rfl⟩
  | _ => exact ⟨rfl, rfl⟩

theorem isTrue_of_rational? {q : ℚ} (h : a.rational? = some q) : a.isTrue = decide (q ≠ 0) := by
  cases a with
  | bool b =>
    rw [← Option.some.inj h]
    cases b <;> simp [isTrue]
  | int n =>
    rw [← Option.some.inj h, Bool.eq_iff_iff]
    simp [isTrue]
  | float x =>
    obtain ⟨-, rfl⟩ := rational?_float_iff.mp h
    rw [Bool.eq_iff_iff]
    simp [isTrue, Binary64.value_eq_zero_iff]
  | _ => cases h

private theorem isEmpty_of_length {α β : Type} {xs : List α} {ys : List β}
    (h : xs.length = ys.length) : xs.isEmpty = ys.isEmpty := by
  rw [Bool.eq_iff_iff, List.isEmpty_iff_length_eq_zero, List.isEmpty_iff_length_eq_zero, h]

theorem isTrue_of_same (h : a.same b = true) : a.isTrue = b.isTrue := by
  cases same_iff.mp h with
  | number h =>
    rcases sameNumber_iff.mp h with ⟨q, ha, hb⟩ | ⟨x, rfl, rfl⟩
    · rw [isTrue_of_rational? ha, isTrue_of_rational? hb]
    · rfl
  | list items | tuple items =>
    rw [isTrue, isTrue, isEmpty_of_length (sameItems_iff.mp items).length_eq]
  | object length => rw [isTrue, isTrue, isEmpty_of_length length]
  | _ => rfl

/-! ### Equal values of one kind -/

theorem identical_iff (hb : b.IsJson) :
    a.identical b = true ↔ a.same b = true ∧ a.kind = b.kind := by
  cases hb <;> cases a <;> simp [identical, kind, same, sameNumber, number?]

theorem identical_trans (hb : b.IsJson) (hc : c.IsJson) (hab : a.identical b = true)
    (hbc : b.identical c = true) : a.identical c = true := by
  rw [identical_iff hb] at hab
  rw [identical_iff hc] at hbc ⊢
  exact ⟨same_trans hb hab.1 hbc.1, hab.2.trans hbc.2⟩

/-! ### Elements -/

theorem same_str (t : String) : (Value.str t).same (.str t) = true :=
  same_str_iff.mpr rfl

/-- The elements of equal values are equal. -/
theorem elements_of_same (ha : a.Decoded) (h : a.same b = true) {xs ys : List Value}
    (hxs : a.elements = .ok xs) (hys : b.elements = .ok ys) :
    (∀ x ∈ xs, ∃ y ∈ ys, x.same y = true) ∧ ∀ y ∈ ys, ∃ x ∈ xs, x.same y = true := by
  cases same_iff.mp h with
  | str t =>
    obtain rfl := Except.ok.inj (hxs.symm.trans hys)
    have self : ∀ x ∈ xs, x.same x = true := by
      rw [← Except.ok.inj hxs]
      intro x hx
      obtain ⟨c, -, rfl⟩ := List.mem_map.mp hx
      exact same_str _
    exact ⟨fun x hx => ⟨x, hx, self x hx⟩, fun x hx => ⟨x, hx, self x hx⟩⟩
  | list items =>
    obtain rfl := Except.ok.inj hxs
    obtain rfl := Except.ok.inj hys
    have items := sameItems_iff.mp items
    exact ⟨fun x hx => items.exists_right hx, fun y hy => items.exists_left hy⟩
  | @object es ms length entries =>
    rw [← Except.ok.inj hxs, ← Except.ok.inj hys]
    have perm : es.keys.Perm ms.keys := by
      apply Entries.keys_perm ha.distinct.self length
      intro e he
      obtain ⟨y, hy, -⟩ := sameEntries_iff.mp entries e he
      exact Entries.has_eq_true_iff.mp (Option.isSome_iff_exists.mpr ⟨y, hy⟩)
    have texts (es : Entries Value) : (es.map fun e => Value.str e.1) = es.keys.map .str := by
      rw [Entries.keys, List.map_map]
      rfl
    rw [texts, texts]
    constructor
    · intro x hx
      obtain ⟨k, hk, rfl⟩ := List.mem_map.mp hx
      exact ⟨_, List.mem_map_of_mem (perm.mem_iff.mp hk), same_str k⟩
    · intro y hy
      obtain ⟨k, hk, rfl⟩ := List.mem_map.mp hy
      exact ⟨_, List.mem_map_of_mem (perm.mem_iff.mpr hk), same_str k⟩
  | number h =>
    have number := (isNumber_of_sameNumber h).1
    cases a with
    | bool | int | float => cases hxs
    | _ => cases number
  | null => cases hxs
  | bytes | tuple | record => cases ha.json

theorem mem_elements_of_same (ha : a.Decoded) (h : a.same b = true) {xs ys : List Value}
    (hxs : a.elements = .ok xs) (hys : b.elements = .ok ys) (t : String) :
    .str t ∈ xs ↔ .str t ∈ ys := by
  obtain ⟨right, left⟩ := elements_of_same ha h hxs hys
  constructor
  · intro hx
    obtain ⟨y, hy, same⟩ := right _ hx
    rwa [← same_str_iff.mp same]
  · intro hy
    obtain ⟨x, hx, same⟩ := left _ hy
    rwa [← same_of_str_right same]

theorem isElement_of_not_str {t : String} {v : Value} (h : ∀ s, v ≠ .str s) :
    isElement (.str t) v = (fun xs => xs.any (Value.same (.str t))) <$> v.elements := by
  cases v with
  | str s => exact absurd rfl (h s)
  | object es =>
    simp only [isElement, isKey, elements, Except.ok_map, List.any_map, if_true]
    rfl
  | _ => rfl

/-- The same texts are elements of equal values. -/
theorem isElement_of_same (ha : a.Decoded) (h : a.same b = true) {t : String} {x y : Bool}
    (hx : isElement (.str t) a = .ok x) (hy : isElement (.str t) b = .ok y) : x = y := by
  by_cases text : ∃ s, a = .str s
  · obtain ⟨s, rfl⟩ := text
    rw [same_str_iff.mp h] at hy
    exact Except.ok.inj (hx.symm.trans hy)
  · push Not at text
    have text' : ∀ s, b ≠ .str s := by
      rintro s rfl
      exact text s (same_of_str_right h)
    rw [isElement_of_not_str text] at hx
    rw [isElement_of_not_str text'] at hy
    obtain ⟨xs, hxs, rfl⟩ := Except.map_eq_ok_iff.mp hx
    obtain ⟨ys, hys, rfl⟩ := Except.map_eq_ok_iff.mp hy
    obtain ⟨right, left⟩ := elements_of_same ha h hxs hys
    rw [Bool.eq_iff_iff, List.any_eq_true, List.any_eq_true]
    constructor
    · rintro ⟨x, hx, same⟩
      obtain ⟨y, hy, hxy⟩ := right x hx
      exact ⟨y, hy, same_str_iff.mp same ▸ hxy⟩
    · rintro ⟨y, hy, same⟩
      obtain ⟨x, hx, hxy⟩ := left y hy
      obtain rfl := same_str_iff.mp same
      exact ⟨x, hx, same_of_str_right hxy ▸ same_str t⟩

/-- Equal objects have equal values under each key. -/
theorem rel_find?_of_same {es ms : Entries Value} (ha : (Value.object es).Decoded)
    (h : (Value.object es).same (.object ms) = true) (key : String) :
    Option.Rel (fun x y => x.same y = true) (es.find? key) (ms.find? key) := by
  cases same_iff.mp h with
  | object length entries =>
    exact Entries.rel_find? ha.distinct.self length (sameEntries_iff.mp entries) key
  | number h => cases (isNumber_of_sameNumber h).1

/-- Equality of decoded values goes both ways. The induction is on the first value. -/
theorem same_symm (ha : a.Decoded) (hb : b.Decoded) (h : a.same b = true) : b.same a = true := by
  have json := ha.json
  induction json generalizing b with
  | null => exact (null_iff_of_same h).mp rfl ▸ h
  | str t => exact same_str_iff.mp h ▸ same_str t
  | bool | int | float =>
    cases same_iff.mp h with
    | number h => exact same_iff.mpr (.number (sameNumber_symm h))
  | list _ ih =>
    cases same_iff.mp h with
    | number h => cases (isNumber_of_sameNumber h).1
    | list items =>
      apply same_iff.mpr
      refine .list (sameItems_iff.mpr (List.Forall₂.flip ?_))
      refine (sameItems_iff.mp items).imp_mem ?_
      intro x hx y hy
      exact ih x hx (ha.item x hx) (hb.item y hy)
  | object _ ih =>
    cases same_iff.mp h with
    | number h => cases (isNumber_of_sameNumber h).1
    | object length _ =>
      apply same_iff.mpr
      refine .object length.symm (sameEntries_iff.mpr ?_)
      intro e he
      have found := (Entries.find?_eq_some_iff hb.distinct.self).mpr he
      have related := rel_find?_of_same ha h e.1
      rw [found] at related
      cases hx : Entries.find? _ e.1 with
      | none =>
        rw [hx] at related
        cases related
      | some x =>
        rw [hx] at related
        cases related with
        | some same =>
          have hmem := Entries.mem_of_find?_eq_some hx
          exact ⟨x, rfl, ih _ hmem (ha.entry _ hmem) (hb.entry e he) same⟩

end Value

end Lexicon
