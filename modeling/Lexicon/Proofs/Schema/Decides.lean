import Lexicon.Proofs.Schema.Plain
import Lexicon.Proofs.Text.MediaPattern

/-!
# What schemas decide

A schema without references decides by itself which values it accepts and what it makes of them.
Main statements: one lemma for each kind of node on the relation between the values it accepts and
what it makes of them, given those of its parts; everything else ends with a failure of the value.
-/

namespace Lexicon

/-! ### Bounds and rules for texts -/

/-- The bounds are whole numbers. -/
structure Bounds.Whole (b : Bounds) : Prop where
  lower : ∀ bound, b.lower = some bound → ∃ m, bound = .int m
  upper : ∀ bound, b.upper = some bound → ∃ m, bound = .int m

/-- A whole number lies within the bounds, or on one of them. -/
def Bounds.Holds (b : Bounds) (k : Int) : Prop :=
  (∀ m, b.lower = some (.int m) → m ≤ k) ∧ ∀ m, b.upper = some (.int m) → k ≤ m

theorem Bounds.Whole.numeric {b : Bounds} (h : b.Whole) : b.Numeric where
  lower bound hbound := by
    obtain ⟨m, rfl⟩ := h.lower bound hbound
    rfl
  upper bound hbound := by
    obtain ⟨m, rfl⟩ := h.upper bound hbound
    rfl

theorem Bounds.whole_unbounded : Bounds.Whole {} := ⟨nofun, nofun⟩

theorem Value.below?_int (a b : Int) : (Value.int a).below? (.int b) = some (decide (a < b)) := by
  simp [below?, number?]

/-- A quantity passes if it can be compared with each bound and lies on the right side. -/
theorem Bounds.outcome_check (b : Bounds) (quantity : Quantity) (k : Int) (path : Path) :
    (b.check quantity (.int k) path : Check Unit Unit).outcome = .ok () ↔
      (∀ x, b.lower = some x → (Value.int k).below? x = some false) ∧
        ∀ x, b.upper = some x → x.below? (.int k) = some false := by
  obtain ⟨lower, upper⟩ := b
  have above : (Bounds.check ⟨none, upper⟩ quantity (.int k) path : Check Unit Unit).outcome =
      .ok () ↔ ∀ x, upper = some x → x.below? (.int k) = some false := by
    cases upper with
    | none => simp [check]
    | some high => rcases h : high.below? (.int k) with _ | _ | _ <;> simp [check, h, Check.fail]
  cases lower with
  | none => simpa using above
  | some low =>
    rcases h : (Value.int k).below? low with _ | _ | _
    · simp [check, h]
    · simpa [check, h] using above
    · simp [check, h, Check.fail]

theorem Bounds.outcome_check_eq_ok_iff {b : Bounds} (h : b.Whole) (quantity : Quantity) (k : Int)
    (path : Path) :
    (b.check quantity (.int k) path : Check Unit Unit).outcome = .ok () ↔ b.Holds k := by
  rw [outcome_check]
  constructor
  · rintro ⟨low, high⟩
    constructor
    · intro m hm
      simpa [Value.below?_int] using low _ hm
    · intro m hm
      simpa [Value.below?_int] using high _ hm
  · rintro ⟨low, high⟩
    constructor
    · intro x hx
      obtain ⟨m, rfl⟩ := h.lower x hx
      simpa [Value.below?_int] using low m hx
    · intro x hx
      obtain ⟨m, rfl⟩ := h.upper x hx
      simpa [Value.below?_int] using high m hx

/-- A text passes if it has the format, is taken by the pattern, and has the right lengths. -/
theorem TextRules.outcome_check (rules : TextRules) (t : String) (path : Path) :
    (rules.check t path : Check Unit Unit).outcome = .ok () ↔
      (∀ format, rules.format = some format → format.accepts t = true) ∧
      (∀ pattern, rules.pattern = some pattern → pattern.accepts t = true) ∧
      (rules.bytes.check .textBytes (.int t.utf8ByteSize) path : Check Unit Unit).outcome = .ok () ∧
      (rules.graphemes.check .graphemes (.int (Text.Grapheme.count t.toList)) path :
        Check Unit Unit).outcome = .ok () := by
  obtain ⟨format, pattern, bytes, graphemes⟩ := rules
  have matched : (TextRules.check ⟨none, pattern, bytes, graphemes⟩ t path :
      Check Unit Unit).outcome = .ok () ↔ (∀ p, pattern = some p → p.accepts t = true) ∧
        (TextRules.check ⟨none, none, bytes, graphemes⟩ t path : Check Unit Unit).outcome =
          .ok () := by
    cases pattern with
    | none => simp
    | some p =>
      by_cases accepted : p.accepts t = true
      · simp [TextRules.check, accepted]
      · simp [TextRules.check, accepted, Check.fail]
  have lengths : (TextRules.check ⟨none, none, bytes, graphemes⟩ t path : Check Unit Unit).outcome =
      .ok () ↔ (bytes.check .textBytes (.int t.utf8ByteSize) path : Check Unit Unit).outcome =
        .ok () ∧ (graphemes.check .graphemes (.int (Text.Grapheme.count t.toList)) path :
          Check Unit Unit).outcome = .ok () := by
    simp only [TextRules.check]
    rw [Check.outcome_bind, Except.bind_eq_ok_iff]
    constructor
    · rintro ⟨⟨⟩, h⟩
      exact h
    · intro h
      exact ⟨(), h⟩
  rw [← lengths, ← matched]
  cases format with
  | none => simp
  | some f =>
    by_cases accepted : f.accepts t = true
    · simp [TextRules.check, accepted]
    · simp [TextRules.check, accepted, Check.fail]

/-- A text keeps the rules: it has the format, it is taken by the pattern, and its bytes and its
characters are within the bounds. -/
structure TextRules.Keeps (rules : TextRules) (t : String) : Prop where
  format : ∀ format, rules.format = some format → format.accepts t = true
  pattern : ∀ pattern, rules.pattern = some pattern → pattern.accepts t = true
  bytes : rules.bytes.Holds t.utf8ByteSize
  graphemes : rules.graphemes.Holds (Text.Grapheme.count t.toList)

theorem TextRules.outcome_check_eq_ok_iff {rules : TextRules} (hbytes : rules.bytes.Whole)
    (hgraphemes : rules.graphemes.Whole) (t : String) (path : Path) :
    (rules.check t path : Check Unit Unit).outcome = .ok () ↔ rules.Keeps t := by
  rw [outcome_check, Bounds.outcome_check_eq_ok_iff hbytes,
    Bounds.outcome_check_eq_ok_iff hgraphemes]
  constructor
  · rintro ⟨format, pattern, bytes, graphemes⟩
    exact ⟨format, pattern, bytes, graphemes⟩
  · rintro ⟨format, pattern, bytes, graphemes⟩
    exact ⟨format, pattern, bytes, graphemes⟩

namespace Schema

/-- A schema accepts a value, by whatever its references may lead to, exactly if it makes something
of it, and otherwise finds a failure in it. -/
structure Decides (s : Schema) (R : Value → Value → Prop) : Prop where
  accepted : ∀ (follow : Reference → Value → Path → Check Unit Value) (v : Value) (path : Path)
    (n : Value), (s.checkWith follow v path).outcome = .ok n ↔ R v n
  refused : ∀ (follow : Reference → Value → Path → Check Unit Value) (v : Value) (path : Path),
    FaultsAre Fault.IsFailure (s.checkWith follow v path).outcome

variable {s : Schema} {R : Value → Value → Prop}

theorem Decides.congr {R' : Value → Value → Prop} (h : s.Decides R)
    (same : ∀ v n, R v n ↔ R' v n) : s.Decides R' where
  accepted follow v path n := (h.accepted follow v path n).trans (same v n)
  refused := h.refused

/-! ### Single values -/

theorem decides_any : Decides .any fun v n => n = v where
  accepted _ v _ n := by simp [checkWith, eq_comm]
  refused _ _ _ := .ok _

theorem decides_literal (value : Value) :
    Decides (.literal value) fun v n => v.identical value = true ∧ n = v where
  accepted _ v _ n := by
    simp only [checkWith]
    split_ifs with same
    · simp [same, eq_comm]
    · simp [same, Check.fail]
  refused _ v _ := (Plain.literal value).faultsAre v _

theorem decides_enum (values : List Value) :
    Decides (.enum values) fun v n => (∃ x ∈ values, v.identical x = true) ∧ n = v where
  accepted _ v _ n := by
    simp only [checkWith, ← List.any_eq_true]
    split_ifs with same
    · simp [same, eq_comm]
    · simp [same, Check.fail]
  refused _ v _ := (Plain.enum values).faultsAre v _

theorem decides_boolean : Decides .boolean fun v n => (∃ b, v = .bool b) ∧ n = v where
  accepted _ v _ n := by cases v <;> simp [checkWith, Check.fail, eq_comm]
  refused _ v _ := Plain.boolean.faultsAre v _

theorem decides_integer {bounds : Bounds} (whole : bounds.Whole) :
    Decides (.integer bounds) fun v n => (∃ k, v = .int k ∧ bounds.Holds k) ∧ n = v where
  accepted _ v path n := by
    cases v with
    | int k =>
      simp only [checkWith]
      rw [Check.outcome_bind, Except.bind_eq_ok_iff]
      simp [Bounds.outcome_check_eq_ok_iff whole, eq_comm]
    | _ => simp [checkWith, Check.fail]
  refused _ v _ := (Plain.integer whole.numeric).faultsAre v _

theorem decides_string {rules : TextRules} (hbytes : rules.bytes.Whole)
    (hgraphemes : rules.graphemes.Whole) :
    Decides (.string rules) fun v n => (∃ t, v = .str t ∧ rules.Keeps t) ∧ n = v where
  accepted _ v path n := by
    cases v with
    | str t =>
      simp only [checkWith]
      rw [Check.outcome_bind, Except.bind_eq_ok_iff]
      simp [TextRules.outcome_check_eq_ok_iff hbytes hgraphemes, eq_comm]
    | _ => simp [checkWith, Check.fail]
  refused _ v _ := (Plain.string hbytes.numeric hgraphemes.numeric).faultsAre v _

theorem decides_text : Decides .text fun v n => (∃ t, v = .str t) ∧ n = v := by
  refine (decides_string Bounds.whole_unbounded Bounds.whole_unbounded).congr fun v n => ?_
  have free (t : String) : TextRules.Keeps {} t := ⟨nofun, nofun, ⟨nofun, nofun⟩, ⟨nofun, nofun⟩⟩
  simp [free]

/-- The bytes that a value stands for. -/
def Spells (v : Value) (b : List UInt8) : Prop :=
  v = .bytes b ∨ ∃ (es : Entries Value) (t : String), v = .object es ∧
    es.find? "$bytes" = some (.str t) ∧ Text.Base64.decode? t.toList = some b

theorem outcome_readBytes_eq_ok_iff {v : Value} {b : List UInt8} {path : Path} :
    (readBytes v path : Check Unit _).outcome = .ok b ↔ Spells v b := by
  unfold readBytes Spells
  cases v with
  | bytes b' => simp
  | object es =>
    dsimp only
    cases hfound : Entries.find? es "$bytes" with
    | none => simp [hfound, Check.fail]
    | some x =>
      cases x with
      | str t =>
        dsimp only
        cases hread : Text.Base64.decode? t.toList <;> simp [hfound, hread, Check.fail]
      | _ => simp [hfound, Check.fail]
  | _ => simp [Check.fail]

theorem faultsAre_readBytes (v : Value) (path : Path) :
    FaultsAre Fault.IsFailure (readBytes v path : Check Unit _).outcome := by
  unfold readBytes
  split
  · exact .ok _
  · split
    · split
      · exact .ok _
      · exact faultsAre_fail _ _
    · exact faultsAre_fail _ _
  · exact faultsAre_fail _ _

theorem decides_bytes {bounds : Bounds} (whole : bounds.Whole) :
    Decides (.bytes bounds) fun v n => ∃ b, Spells v b ∧ bounds.Holds b.length ∧ n = .bytes b where
  accepted _ v path n := by
    simp only [checkWith]
    rw [Check.outcome_bind, Except.bind_eq_ok_iff]
    simp only [outcome_readBytes_eq_ok_iff]
    refine exists_congr fun b => and_congr_right fun _ => ?_
    rw [Check.outcome_bind, Except.bind_eq_ok_iff]
    simp [Bounds.outcome_check_eq_ok_iff whole, eq_comm]
  refused _ v path := by
    refine faultsAre_bind (faultsAre_readBytes v path) fun b => ?_
    exact faultsAre_bind (faultsAre_bounds whole.numeric _ _ _) fun _ => .ok _

/-! ### Marks and arrays -/

theorem Decides.required (h : s.Decides R) : Decides (.required s) R where
  accepted follow v path n := by
    simp only [checkWith]
    exact h.accepted follow v path n
  refused follow v path := by
    simp only [checkWith]
    exact h.refused follow v path

theorem Decides.withDefault (h : s.Decides R) (value : Value) :
    Decides (.withDefault s value) R where
  accepted follow v path n := by
    simp only [checkWith]
    exact h.accepted follow v path n
  refused follow v path := by
    simp only [checkWith]
    exact h.refused follow v path

theorem Decides.outcome_checkItems_eq_ok_iff (h : s.Decides R)
    (follow : Reference → Value → Path → Check Unit Value) (path : Path) (i : Nat)
    {xs ys : List Value} :
    (checkItems (checkWith follow s) path i xs).outcome = .ok ys ↔ List.Forall₂ R xs ys := by
  induction xs generalizing i ys with
  | nil => simp [checkItems, eq_comm]
  | cons x xs ih =>
    simp only [checkItems]
    rw [Check.outcome_bind, Except.bind_eq_ok_iff, List.forall₂_cons_left_iff]
    refine exists_congr fun y => ?_
    rw [h.accepted, Check.outcome_bind, Except.bind_eq_ok_iff]
    simp only [ih, Check.outcome_pure, Except.ok.injEq]
    constructor
    · rintro ⟨hy, rest, hrest, same⟩
      exact ⟨rest, hy, hrest, same.symm⟩
    · rintro ⟨rest, hy, hrest, same⟩
      exact ⟨hy, rest, hrest, same.symm⟩

theorem Decides.array (h : s.Decides R) {bounds : Bounds} (whole : bounds.Whole) :
    Decides (.array s bounds) fun v n => ∃ xs ys, (v = .list xs ∨ v = .tuple xs) ∧
      bounds.Holds xs.length ∧ List.Forall₂ R xs ys ∧ n = .list ys where
  accepted follow v path n := by
    cases v with
    | list xs | tuple xs =>
      simp only [checkWith]
      rw [Check.outcome_bind, Except.bind_eq_ok_iff]
      simp only [Bounds.outcome_check_eq_ok_iff whole, Check.outcome_bind, Except.bind_eq_ok_iff,
        h.outcome_checkItems_eq_ok_iff, Check.outcome_pure, Except.ok.injEq]
      simp [eq_comm]
    | _ => simp [checkWith, Check.fail]
  refused follow v path := by
    cases v with
    | list xs | tuple xs =>
      refine faultsAre_bind (faultsAre_bounds whole.numeric _ _ _) fun _ => ?_
      exact faultsAre_bind (faultsAre_checkItems (fun x _ => h.refused follow x) _ _) fun _ =>
        .ok _
    | _ => exact faultsAre_fail _ _

/-! ### Objects and alternatives -/

private theorem forall₂_collected_iff {fields : List (String × Schema)}
    {Q : String × Schema → Value → Prop} {parts : List (Option (String × Value))} :
    List.Forall₂ (fun e p => ∃ y, Q e y ∧ p = some (e.1, y)) fields parts ↔
      ∃ ys, List.Forall₂ Q fields ys ∧ parts = ((Entries.keys fields).zip ys).map some := by
  induction fields generalizing parts with
  | nil => simp [Entries.keys]
  | cons e rest ih =>
    simp only [List.forall₂_cons_left_iff, ih]
    constructor
    · rintro ⟨_, _, ⟨y, hy, rfl⟩, ⟨ys, hys, rfl⟩, rfl⟩
      exact ⟨y :: ys, ⟨y, ys, hy, hys, rfl⟩, rfl⟩
    · rintro ⟨_, ⟨y, ys, hy, hys, rfl⟩, rfl⟩
      exact ⟨_, _, ⟨y, hy, rfl⟩, ⟨ys, hys, rfl⟩, rfl⟩

/-- An object whose declared fields must all be present accepts what has an accepted value under
each of the declared keys. -/
theorem decides_fields {fields : List (String × Schema)} {R : String → Value → Value → Prop}
    (h : ∀ e ∈ fields, e.2.Decides (R e.1)) (required : ∀ e ∈ fields, e.2.isRequired = true)
    (plain : ∀ e ∈ fields, e.2.default? = none) :
    Decides (.fields fields) fun v n => ∃ (es : Entries Value) (ys : List Value), v = .object es ∧
      List.Forall₂ (fun e y => ∃ x, es.find? e.1 = some x ∧ R e.1 x y) fields ys ∧
      n = .object ((Entries.keys fields).zip ys ++ undeclared fields es) where
  accepted follow v path n := by
    cases v with
    | object es =>
      have part {e : String × Schema} (he : e ∈ fields) (p : Option (String × Value)) :
          Schema.part follow es path e.1 e.2 = .ok p ↔
            ∃ y, (∃ x, Entries.find? es e.1 = some x ∧ R e.1 x y) ∧ p = some (e.1, y) := by
        cases hx : Entries.find? es e.1 with
        | some x =>
          rw [part_of_found hx, Except.map_eq_ok_iff]
          simp [(h e he).accepted, eq_comm]
        | none =>
          simp [Schema.part, hx, plain e he, required e he, Except.throw_eq_error]
      have parts (ps : List (Option (String × Value))) :
          fields.mapM (fun e => Schema.part follow es path e.1 e.2) = .ok ps ↔
            ∃ ys, List.Forall₂ (fun e y => ∃ x, Entries.find? es e.1 = some x ∧ R e.1 x y)
              fields ys ∧ ps = ((Entries.keys fields).zip ys).map some := by
        rw [Except.mapM_eq_ok_iff, ← forall₂_collected_iff]
        exact ⟨fun hps => hps.imp_mem fun e he p _ hp => (part he p).mp hp,
          fun hps => hps.imp_mem fun e he p _ hp => (part he p).mpr hp⟩
      simp only [outcome_fields, Except.map_eq_ok_iff, parts, Value.object.injEq]
      constructor
      · rintro ⟨_, ⟨ys, hys, rfl⟩, rfl⟩
        exact ⟨es, ys, rfl, hys, by simp [List.filterMap_map]⟩
      · rintro ⟨_, ys, rfl, hys, rfl⟩
        exact ⟨_, ⟨ys, hys, rfl⟩, by simp [List.filterMap_map]⟩
    | _ => simp [Schema.fields, checkWith, Check.fail]
  refused follow v path := by
    cases v with
    | object es =>
      rw [outcome_fields]
      refine .map _ (.mapM fun e he => ?_)
      unfold part
      split
      · exact .map _ ((h e he).refused _ _ _)
      · rw [plain e he, if_pos (required e he)]
        exact FaultsAre.error_iff.mpr ⟨_, rfl⟩
    | _ => exact faultsAre_fail _ _

/-- Of two alternatives the second one counts where the first one makes nothing of a value. -/
theorem decides_anyOf_pair {t : Schema} {S : Value → Value → Prop} (hs : s.Decides R)
    (ht : t.Decides S) (description : String) :
    Decides (.anyOf [s, t] description) fun v n => R v n ∨ (∀ m, ¬ R v m) ∧ S v n where
  accepted follow v path n := by
    rw [checkWith_anyOf]
    simp only [checkAll]
    rw [outcome_oneOf_pair, hs.accepted, ht.accepted]
    refine or_congr_right (and_congr_left fun _ => ⟨?_, fun nothing => ?_⟩)
    · rintro ⟨f, hf⟩ m hm
      rw [(hs.accepted follow v path m).mpr hm] at hf
      cases hf
    · cases hx : (s.checkWith follow v path).outcome with
      | ok m => exact absurd ((hs.accepted follow v path m).mp hx) (nothing m)
      | error e =>
        obtain ⟨f, rfl⟩ := hs.refused follow v path e hx
        exact ⟨f, rfl⟩
  refused follow v path := by
    rw [checkWith_anyOf]
    simp only [checkAll, Check.outcome_oneOf_cons]
    intro e he
    split at he
    · cases he
    · split at he
      · cases he
      · exact ⟨_, (Except.error.inj he).symm⟩
      · next hy =>
        obtain rfl := Except.error.inj he
        exact ht.refused follow v path _ hy
    · next hx =>
      obtain rfl := Except.error.inj he
      exact hs.refused follow v path _ hx

end Schema

end Lexicon
