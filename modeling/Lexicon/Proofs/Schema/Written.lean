import Lexicon.Compile.Field
import Lexicon.Proofs.Check.Place
import Lexicon.Proofs.Record.Encode
import Lexicon.Proofs.Schema.Object
import Lexicon.Proofs.Text.Base64

/-!
# Checking written values

A checked value is written with its bytes in base 64 and everything else as it is. Main statements:
a schema accepts the written form of what it made of JSON, and makes the same of it, if its parts
do; the schemas of single values, of bytes, of links and of blobs do in any case. Bytes come back
from their written form wherever their length is allowed, with or without padding.
-/

namespace Lexicon

/-- A number of parts lies within the bounds. -/
def Bounds.Admits (bounds : Bounds) (n : Nat) : Prop :=
  (∀ lower ∈ bounds.lower, (Value.int n).below? lower = some false) ∧
    ∀ upper ∈ bounds.upper, upper.below? (.int n) = some false

theorem Bounds.check_of_admits {σ : Type} {bounds : Bounds} {n : Nat} (h : bounds.Admits n)
    (quantity : Quantity) (path : Path) :
    (bounds.check quantity (.int n) path : Check σ Unit) = pure () := by
  obtain ⟨lower, upper⟩ := bounds
  obtain ⟨above, below⟩ := h
  cases lower <;> cases upper <;> simp_all [Bounds.check]

namespace Schema

/-! ### Bytes on the wire -/

section Wire

variable {σ : Type} (follow : Reference → Value → Path → Check σ Value)

theorem checkWith_bytes_of_decode? {bounds : Bounds} {b : List UInt8} (h : bounds.Admits b.length)
    {cs : List Char} (hcs : Text.Base64.decode? cs = some b) (path : Path) :
    (Schema.bytes bounds).checkWith follow (.object [("$bytes", .str (String.ofList cs))]) path =
      pure (.bytes b) := by
  have read : (readBytes (.object [("$bytes", .str (String.ofList cs))]) path : Check σ _) =
      pure b := by
    simp [readBytes, Entries.find?, hcs]
  rw [checkWith, read, pure_bind, Bounds.check_of_admits h, pure_bind]

/-- Bytes survive the wire. A schema whose bounds admit their number makes them again of what they
are written as, and of the same text with some or all of its standard padding. What is written
holds no padding, and different bytes are written differently. -/
theorem bytes_survive_wire (b : List UInt8) :
    (∀ bounds : Bounds, bounds.Admits b.length → ∀ s : σ,
      (verdict follow (.bytes bounds) (Value.bytes b).encode).run s =
          (.ok (.ok (.bytes b)), s) ∧
        ∀ k ≤ Text.Base64.padding b,
          (verdict follow (.bytes bounds) (.object [("$bytes", .str (String.ofList
            (Text.Base64.encode b ++ List.replicate k '=')))])).run s =
              (.ok (.ok (.bytes b)), s)) ∧
      '=' ∉ Text.Base64.encode b ∧
      ∀ c : List UInt8, Text.Base64.encode c = Text.Base64.encode b → c = b := by
  refine ⟨fun bounds admitted s => ⟨?_, fun k hk => ?_⟩, Text.Base64.notMem_encode b,
    fun c hc => Text.Base64.encode_injective hc⟩
  · have written := checkWith_bytes_of_decode? follow admitted (Text.Base64.decode?_encode b) []
    rw [Value.encode, Value.encodedBytes, verdict, Check.run_attempt, written, Check.run_pure]
  · have padded := checkWith_bytes_of_decode? follow admitted
      (Text.Base64.decode?_encode_append hk) []
    rw [verdict, Check.run_attempt, padded, Check.run_pure]

/-- Four bytes, of which the last begins a group, with one of the two padding characters. -/
theorem bytes_survive_wire_half_padded :
    Bounds.Admits ⟨some (.int 4), some (.int 4)⟩ 4 ∧
      1 ≤ Text.Base64.padding [0xfb, 0xff, 0xfe, 0x3e] ∧
      plainVerdict (.bytes ⟨some (.int 4), some (.int 4)⟩)
          (.object [("$bytes", .str "+//+Pg=")]) =
        .ok (.ok (.bytes [0xfb, 0xff, 0xfe, 0x3e])) := by
  have admitted : Bounds.Admits ⟨some (.int 4), some (.int 4)⟩ 4 := by
    refine ⟨fun lower h => ?_, fun upper h => ?_⟩ <;> cases h <;> rfl
  have padding : 1 ≤ Text.Base64.padding [0xfb, 0xff, 0xfe, 0x3e] := by decide
  have read := ((bytes_survive_wire (fun target _ _ =>
    throw (.unresolved target.nsid target.fragment [])) [0xfb, 0xff, 0xfe, 0x3e]).1 _ admitted
      ()).2 1 padding
  have text : String.ofList
      (Text.Base64.encode [0xfb, 0xff, 0xfe, 0x3e] ++ List.replicate 1 '=') = "+//+Pg=" := by
    decide +kernel
  rw [text] at read
  exact ⟨admitted, padding, congrArg Prod.fst read⟩

end Wire

section Returns

variable (follow : Reference → Value → Path → Check Unit Value)

/-- What `dress` makes of a checked value is found again: the schema accepts its written form, and
`dress` makes the same of that. -/
def Returns (s : Schema) (dress : Value → Except Fault Value) : Prop :=
  ∀ ⦃v m x : Value⦄ ⦃path : Path⦄, v.IsJson → (s.checkWith follow v path).outcome = .ok m →
    dress m = .ok x → ∃ m', (s.checkWith follow x.encode path).outcome = .ok m' ∧ dress m' = .ok x

/-- A schema makes of the written form of a checked value that value. -/
def Rereads (s : Schema) : Prop :=
  ∀ ⦃v m : Value⦄ ⦃path : Path⦄, v.IsJson → (s.checkWith follow v path).outcome = .ok m →
    (s.checkWith follow m.encode path).outcome = .ok m

variable {follow} {s : Schema}

theorem Rereads.returns (h : s.Rereads follow) {dress : Value → Except Fault Value}
    (plain : ∀ m, dress m = .ok m) : s.Returns follow dress := by
  intro v m x path hv hm hx
  rw [plain] at hx
  obtain rfl := Except.ok.inj hx
  exact ⟨m, h hv hm, plain m⟩

theorem Returns.rereads (h : s.Returns follow .ok) : s.Rereads follow := by
  intro v m path hv hm
  obtain ⟨m', hm', same⟩ := h hv hm rfl
  rwa [Except.ok.inj same] at hm'

/-! ### Single values -/

/-- The schemas of single values. -/
inductive Scalar : Schema → Prop
  | boolean : Scalar .boolean
  | integer (bounds : Bounds) : Scalar (.integer bounds)
  | string (rules : TextRules) : Scalar (.string rules)
  | literal (value : Value) : Scalar (.literal value)
  | enum (values : List Value) : Scalar (.enum values)

theorem Scalar.default?_eq_none (h : s.Scalar) : s.default? = none := by
  cases h <;> rfl

/-- What the schema of a single value accepts it leaves as it is, and accepts it anywhere. -/
theorem Scalar.accepted (h : s.Scalar) {v m : Value} {path : Path}
    (hm : (s.checkWith follow v path).outcome = .ok m) :
    m = v ∧ ∀ (follow' : Reference → Value → Path → Check Unit Value) (place : Path),
      (s.checkWith follow' v place).outcome = .ok v := by
  cases h with
  | boolean =>
    cases v with
    | bool b => exact ⟨(Except.ok.inj hm).symm, fun _ _ => rfl⟩
    | _ => simp [checkWith, Check.fail] at hm
  | integer bounds =>
    cases v with
    | int n =>
      simp only [checkWith, Check.outcome_bind] at hm ⊢
      obtain ⟨_, hbounds, hm⟩ := Except.bind_eq_ok_iff.mp hm
      refine ⟨(Except.ok.inj hm).symm, fun _ place => ?_⟩
      rw [((Check.alike.rel_bounds bounds _ _ trivial).ok_iff _).mp hbounds]
      rfl
    | _ => simp [checkWith, Check.fail] at hm
  | string rules =>
    cases v with
    | str text =>
      simp only [checkWith, Check.outcome_bind] at hm ⊢
      obtain ⟨_, hrules, hm⟩ := Except.bind_eq_ok_iff.mp hm
      refine ⟨(Except.ok.inj hm).symm, fun _ place => ?_⟩
      rw [((Check.alike.rel_rules rules _ trivial).ok_iff _).mp hrules]
      rfl
    | _ => simp [checkWith, Check.fail] at hm
  | literal value =>
    simp only [checkWith] at hm ⊢
    split_ifs at hm ⊢
    · exact ⟨(Except.ok.inj hm).symm, fun _ _ => rfl⟩
    · simp [Check.fail] at hm
  | enum values =>
    simp only [checkWith] at hm ⊢
    split_ifs at hm ⊢
    · exact ⟨(Except.ok.inj hm).symm, fun _ _ => rfl⟩
    · simp [Check.fail] at hm

theorem Scalar.rereads (h : s.Scalar) : s.Rereads follow := by
  intro v m path hv hm
  obtain ⟨rfl, anywhere⟩ := h.accepted hm
  rw [hv.encode_eq]
  exact anywhere follow path

theorem rereads_any : Rereads follow .any := by
  intro v m path hv hm
  obtain rfl := Except.ok.inj hm
  rw [hv.encode_eq]
  rfl

theorem rereads_noop : Rereads follow .noop := by
  intro v m path hv hm
  obtain rfl := Except.ok.inj hm
  rw [hv.encode_eq]
  rfl

theorem readBytes_encodedBytes (b : List UInt8) (path : Path) :
    (readBytes (Value.encodedBytes b) path : Check Unit _).outcome = .ok b := by
  simp [readBytes, Value.encodedBytes, Entries.find?, Text.Base64.decode?_encode]

theorem rereads_bytes (bounds : Bounds) : Rereads follow (.bytes bounds) := by
  intro v m path hv hm
  simp only [checkWith, Check.outcome_bind] at hm
  obtain ⟨b, _, hm⟩ := Except.bind_eq_ok_iff.mp hm
  obtain ⟨_, hbounds, hm⟩ := Except.bind_eq_ok_iff.mp hm
  obtain rfl := Except.ok.inj hm
  simp only [checkWith, Check.outcome_bind, Value.encode, readBytes_encodedBytes,
    Except.ok_bind, hbounds]
  rfl

/-! ### Marks and arrays -/

section Marks

variable {dress : Value → Except Fault Value}

theorem Returns.required (h : s.Returns follow dress) : Returns follow (.required s) dress := by
  intro v m x path hv hm hx
  simp only [checkWith] at hm ⊢
  exact h hv hm hx

theorem checkWith_nullable {v : Value} (hv : v ≠ .null) (path : Path) :
    (Schema.nullable s).checkWith follow v path = s.checkWith follow v path := by
  cases v with
  | null => exact absurd rfl hv
  | _ => simp only [checkWith]

theorem Returns.nullable (h : s.Returns follow dress) (null : dress .null = .ok .null) :
    Returns follow (.nullable s) dress := by
  intro v m x path hv hm hx
  by_cases hencoded : x.encode = .null
  · rw [hencoded, Value.encode_eq_null_iff.mp hencoded]
    exact ⟨.null, rfl, null⟩
  · have hnull : v ≠ .null := by
      rintro rfl
      obtain rfl := Except.ok.inj hm
      obtain rfl := Except.ok.inj (null.symm.trans hx)
      exact hencoded rfl
    rw [checkWith_nullable hnull] at hm
    rw [checkWith_nullable hencoded]
    exact h hv hm hx

theorem Rereads.required (h : s.Rereads follow) : Rereads follow (.required s) :=
  (h.returns fun _ => rfl).required.rereads

theorem Rereads.nullable (h : s.Rereads follow) : Rereads follow (.nullable s) :=
  ((h.returns fun _ => rfl).nullable rfl).rereads

theorem Rereads.withDefault (h : s.Rereads follow) (value : Value) :
    Rereads follow (.withDefault s value) := by
  intro v m path hv hm
  simp only [checkWith] at hm ⊢
  exact h hv hm

end Marks

/-- What `dress` makes of the items of an array. -/
def dressItems (dress : Value → Except Fault Value) : Value → Except Fault Value
  | .list items => .list <$> items.mapM dress
  | v => .ok v

private theorem returns_items {dress : Value → Except Fault Value} (h : s.Returns follow dress)
    {path : Path} {i : Nat} {xs ms ys : List Value} (hxs : ∀ x ∈ xs, x.IsJson)
    (hms : (checkItems (checkWith follow s) path i xs).outcome = .ok ms)
    (hys : ms.mapM dress = .ok ys) :
    ys.length = xs.length ∧ ∃ ms',
      (checkItems (checkWith follow s) path i (Value.encodeItems ys)).outcome = .ok ms' ∧
        ms'.mapM dress = .ok ys := by
  induction xs generalizing i ms ys with
  | nil =>
    obtain rfl := Except.ok.inj hms
    obtain rfl := Except.ok.inj hys
    exact ⟨rfl, [], rfl, rfl⟩
  | cons x xs ih =>
    obtain ⟨hx, hxs⟩ := List.forall_mem_cons.mp hxs
    simp only [checkItems, Check.outcome_bind] at hms
    obtain ⟨m, hm, hms⟩ := Except.bind_eq_ok_iff.mp hms
    obtain ⟨rest, hrest, hms⟩ := Except.bind_eq_ok_iff.mp hms
    obtain rfl := Except.ok.inj hms
    rw [List.mapM_cons] at hys
    obtain ⟨y, hy, hys⟩ := Except.bind_eq_ok_iff.mp hys
    obtain ⟨others, hothers, hys⟩ := Except.bind_eq_ok_iff.mp hys
    obtain rfl := Except.ok.inj hys
    obtain ⟨m', hm', hy'⟩ := h hx hm hy
    obtain ⟨hlength, rest', hrest', hothers'⟩ := ih hxs hrest hothers
    refine ⟨congrArg (· + 1) hlength, m' :: rest', ?_, ?_⟩
    · simp only [Value.encodeItems, checkItems, Check.outcome_bind, hm', hrest', Except.ok_bind]
      rfl
    · simp only [List.mapM_cons, hy', hothers', Except.ok_bind]
      rfl

theorem Returns.array {dress : Value → Except Fault Value} (h : s.Returns follow dress)
    (bounds : Bounds) : Returns follow (.array s bounds) (dressItems dress) := by
  intro v m x path hv hm hx
  cases hv with
  | @list xs hxs =>
    simp only [checkWith, Check.outcome_bind] at hm
    obtain ⟨_, hbounds, hm⟩ := Except.bind_eq_ok_iff.mp hm
    obtain ⟨ms, hms, hm⟩ := Except.bind_eq_ok_iff.mp hm
    obtain rfl := Except.ok.inj hm
    obtain ⟨ys, hys, rfl⟩ := Except.map_eq_ok_iff.mp hx
    obtain ⟨hlength, ms', hms', hys'⟩ := returns_items h hxs hms hys
    refine ⟨.list ms', ?_, by simp only [dressItems, hys', Except.ok_map]⟩
    have length : (Value.encodeItems ys).length = xs.length := by
      rw [Value.encodeItems_eq_map, List.length_map, hlength]
    simp only [Value.encode, checkWith, Check.outcome_bind, length, hbounds, hms',
      Except.ok_bind]
    rfl
  | _ => simp [checkWith, Check.fail] at hm

theorem Rereads.array (h : s.Rereads follow) (bounds : Bounds) :
    Rereads follow (.array s bounds) := by
  have items : Returns follow (.array s bounds) (dressItems .ok) :=
    (h.returns fun _ => rfl).array bounds
  have plain : dressItems .ok = .ok := by
    funext v
    cases v with
    | list items =>
      have same : items.mapM (.ok : Value → Except Fault Value) = .ok items :=
        Except.mapM_eq_ok_iff.mpr (List.forall₂_same.mpr fun _ _ => rfl)
      simp only [dressItems, same, Except.ok_map]
    | _ => rfl
  rw [plain] at items
  exact items.rereads

/-! ### Objects -/

/-- A field of an object is found again: its values are, and so is the value that stands in for an
absent one. -/
structure RereadsField (follow : Reference → Value → Path → Check Unit Value) (s : Schema) :
    Prop where
  value : s.Rereads follow
  default : ∀ d, s.default? = some d → ∀ path, (s.checkWith follow d.encode path).outcome = .ok d

theorem RereadsField.of_value (h : s.Rereads follow) (plain : s.default? = none) :
    s.RereadsField follow :=
  ⟨h, fun d hd => by simp [plain] at hd⟩

theorem part_of_written {es es' : Entries Value} {path : Path} {key : String}
    {p : Option (String × Value)} (hs : s.RereadsField follow)
    (hes : ∀ x, es.find? key = some x → x.IsJson) (hp : part follow es path key s = .ok p)
    (hes' : es'.find? key = p.map fun e => e.2.encode) : part follow es' path key s = .ok p := by
  cases p with
  | none =>
    obtain ⟨-, plain, optional⟩ := part_eq_none_iff.mp hp
    exact part_eq_none_iff.mpr ⟨hes', plain, optional⟩
  | some e =>
    rcases part_eq_some_iff.mp hp with ⟨x, y, hx, hy, rfl⟩ | ⟨-, d, hd, rfl⟩
    · rw [part_of_found hes', hs.value (hes x hx) hy]
      rfl
    · rw [part_of_found hes', hs.default d hd]
      rfl

/-- The written form of checked entries holds under each declared key what its field put there. -/
private theorem find?_encode_parts {fields : List (String × Schema)}
    (hnodup : (Entries.keys fields).Nodup) {es : Entries Value} {path : Path}
    {parts : List (Option (String × Value))}
    (h : List.Forall₂ (fun e p => part follow es path e.1 e.2 = .ok p) fields parts)
    {e : String × Schema} {p : Option (String × Value)} (he : e ∈ fields)
    (hp : part follow es path e.1 e.2 = .ok p) :
    Entries.find? (Value.encodeEntries (parts.filterMap id ++ undeclared fields es)) e.1 =
      p.map fun e => e.2.encode := by
  obtain ⟨p', hp', hfound⟩ := find?_checked h hnodup he
  obtain rfl := Except.ok.inj (hp.symm.trans hp')
  rw [Value.find?_encodeEntries, hfound, Option.map_map]
  rfl

private theorem undeclared_encode {fields : List (String × Schema)} {es : Entries Value}
    (hes : ∀ e ∈ es, e.2.IsJson) {parts : List (Option (String × Value))}
    (hkeys : ∀ e ∈ parts.filterMap id, e.1 ∈ Entries.keys fields) :
    undeclared fields (Value.encodeEntries (parts.filterMap id ++ undeclared fields es)) =
      undeclared fields es := by
  have none_of_parts : undeclared fields (Value.encodeEntries (parts.filterMap id)) = [] := by
    rw [undeclared, List.filter_eq_nil_iff, Value.encodeEntries_eq_map]
    intro e he
    obtain ⟨e', he', rfl⟩ := List.mem_map.mp he
    simp [Entries.has_eq_true_iff.mpr (hkeys e' he')]
  have others : Value.encodeEntries (undeclared fields es) = undeclared fields es := by
    have json : (Value.object (undeclared fields es)).IsJson :=
      .object fun e he => hes e (List.mem_of_mem_filter he)
    have := json.encode_eq
    rwa [Value.encode, Value.object.injEq] at this
  rw [Value.encodeEntries_eq_map, List.map_append, ← Value.encodeEntries_eq_map,
    ← Value.encodeEntries_eq_map, others]
  simp only [undeclared, List.filter_append, List.filter_filter, Bool.and_self] at none_of_parts ⊢
  rw [none_of_parts, List.nil_append]

/-- An object without rules for undeclared keys is found again if its declared fields are. -/
theorem rereads_fields {fields : List (String × Schema)} (hnodup : (Entries.keys fields).Nodup)
    (h : ∀ e ∈ fields, e.2.RereadsField follow) : Rereads follow (.fields fields) := by
  intro v m path hv hm
  obtain ⟨es, parts, rfl, hparts, rfl⟩ := outcome_fields_eq_ok_iff.mp hm
  cases hv with
  | object hes =>
    have keys : ∀ e ∈ parts.filterMap id, e.1 ∈ Entries.keys fields := by
      intro e he
      obtain ⟨p, hp, rfl⟩ := List.mem_filterMap.mp he
      obtain ⟨field, hfield, hpart⟩ := hparts.exists_left hp
      rw [key_of_part follow hpart]
      exact Entries.mem_keys_of_mem hfield
    rw [Value.encode, outcome_fields_eq_ok_iff]
    refine ⟨_, parts, rfl, ?_, by rw [undeclared_encode hes keys]⟩
    refine hparts.imp_mem fun e he p _ hp => ?_
    exact part_of_written (h e he) (fun x hx => hes _ (Entries.mem_of_find?_eq_some hx)) hp
      (find?_encode_parts hnodup hparts he hp)

/-! ### Links and blobs -/

theorem rereads_linkSchema : Rereads follow Field.linkSchema := by
  refine rereads_fields (by decide) fun e he => ?_
  rw [List.mem_singleton.mp he]
  exact .of_value (Scalar.string _).rereads.required rfl

theorem outcome_oneOf_pair {last : Option Failure} {x y : Check Unit Value} {path : Path}
    {problem : Option Failure → Problem} {m : Value} :
    (Check.oneOf last [x, y] path problem).outcome = .ok m ↔
      x.outcome = .ok m ∨ (∃ f, x.outcome = .error (.invalid f)) ∧ y.outcome = .ok m := by
  have refused (f : Failure) : (Check.oneOf (some f) [] path problem).outcome ≠ .ok m := nofun
  rw [Check.outcome_oneOf_cons]
  cases hx : x.outcome with
  | ok a => simp
  | error e =>
    cases e with
    | invalid f =>
      simp only [Check.outcome_oneOf_cons]
      cases hy : y.outcome with
      | ok b => simp
      | error e => cases e <;> simp [refused]
    | _ => simp

/-- The fields of a blob. -/
def blobFields (pattern : MediaPattern) (maxSize : Option Value) : List (String × Schema) := [
  ("$type", .required (.literal (.str "blob"))),
  ("ref", .required Field.linkSchema),
  ("mimeType", .required (.string { pattern := some pattern })),
  ("size", .required (.integer ⟨some (.int 0), maxSize⟩))]

/-- The fields of a blob of the older form. -/
def olderBlobFields (pattern : MediaPattern) : List (String × Schema) := [
  ("cid", .required .text),
  ("mimeType", .required (.string { pattern := some pattern }))]

/-- A blob is a link among single values. -/
theorem forall_mem_blobFields {P : Schema → Prop}
    (scalar : ∀ {s : Schema}, s.Scalar → P (.required s)) (link : P (.required Field.linkSchema))
    (pattern : MediaPattern) (maxSize : Option Value) :
    ∀ e ∈ blobFields pattern maxSize, P e.2 := by
  simp only [blobFields, List.forall_mem_cons]
  exact ⟨scalar (.literal _), link, scalar (.string _), scalar (.integer _), List.forall_mem_nil _⟩

theorem forall_mem_olderBlobFields {P : Schema → Prop}
    (scalar : ∀ {s : Schema}, s.Scalar → P (.required s)) (pattern : MediaPattern) :
    ∀ e ∈ olderBlobFields pattern, P e.2 := by
  simp only [olderBlobFields, List.forall_mem_cons]
  exact ⟨scalar (.string _), scalar (.string _), List.forall_mem_nil _⟩

/-- A blob is read in its own form and, if it is refused in that one, in the older form. -/
theorem outcome_blobSchema_iff {pattern : MediaPattern} {maxSize : Option Value} {v m : Value}
    {path : Path} :
    ((Field.blobSchema pattern maxSize).checkWith follow v path).outcome = .ok m ↔
      ((Schema.fields (blobFields pattern maxSize)).checkWith follow v path).outcome = .ok m ∨
        (∃ f, ((Schema.fields (blobFields pattern maxSize)).checkWith follow v path).outcome =
          .error (.invalid f)) ∧
        ((Schema.fields (olderBlobFields pattern)).checkWith follow v path).outcome = .ok m := by
  rw [Field.blobSchema, checkWith_anyOf]
  simp only [checkAll]
  exact outcome_oneOf_pair

theorem exists_entries {fields : List (String × Schema)} {v m : Value} {path : Path}
    (hm : ((Schema.fields fields).checkWith follow v path).outcome = .ok m) :
    ∃ ms, m = .object ms := by
  obtain ⟨_, _, -, -, rfl⟩ := outcome_fields_eq_ok_iff.mp hm
  exact ⟨_, rfl⟩

/-- A schema whose fields keep single values as they are changes no value under a key. -/
theorem find?_of_scalars {fields : List (String × Schema)}
    (hnodup : (Entries.keys fields).Nodup)
    (h : ∀ e ∈ fields, ∃ s, e.2 = .required s ∧ s.Scalar ∧ s.default? = none)
    {es ns : Entries Value} {path : Path}
    (hn : ((Schema.fields fields).checkWith follow (.object es) path).outcome = .ok (.object ns))
    (key : String) : ns.find? key = es.find? key := by
  obtain ⟨_, parts, ⟨⟩, hparts, ⟨⟩⟩ := outcome_fields_eq_ok_iff.mp hn
  by_cases hkey : key ∈ Entries.keys fields
  · obtain ⟨e, he, rfl⟩ := List.mem_map.mp hkey
    obtain ⟨p, hp, hfound⟩ := find?_checked hparts hnodup he
    obtain ⟨s, hs, scalar, plain⟩ := h e he
    have none_given : (Schema.required s).default? = none := plain
    rw [hs] at hp
    obtain ⟨x, y, hx, hy, rfl⟩ := exists_found_of_required rfl none_given hp
    simp only [checkWith] at hy
    rw [hfound, hx, (scalar.accepted hy).1]
    rfl
  · exact find?_checked_of_notMem hparts hkey

/-- An object without rules for undeclared keys is refused for what stands under the declared keys
alone. -/
theorem refuses_congr {fields : List (String × Schema)} {es es' : Entries Value}
    (h : ∀ key, es'.find? key = es.find? key) {path : Path} {e : Fault}
    (he : ((Schema.fields fields).checkWith follow (.object es) path).outcome = .error e) :
    ((Schema.fields fields).checkWith follow (.object es') path).outcome = .error e := by
  have same (key : String) (field : Schema) :
      part follow es' path key field = part follow es path key field := by
    simp only [part, h]
  rw [outcome_fields] at he ⊢
  simp only [same]
  cases hparts : fields.mapM fun e => part follow es path e.1 e.2 with
  | error e' =>
    rw [hparts] at he
    exact he
  | ok parts => simp [hparts] at he

/-- The older form of a blob keeps what stands under each key. -/
theorem find?_of_olderBlob {pattern : MediaPattern} {es ns : Entries Value} {path : Path}
    (hn : ((Schema.fields (olderBlobFields pattern)).checkWith follow (.object es) path).outcome =
      .ok (.object ns)) (key : String) : ns.find? key = es.find? key := by
  refine find?_of_scalars (by simp [Entries.keys, olderBlobFields]) ?_ hn key
  exact forall_mem_olderBlobFields (P := fun field => ∃ s, field = .required s ∧ s.Scalar ∧
    s.default? = none) (fun h => ⟨_, rfl, h, h.default?_eq_none⟩) pattern

theorem rereads_blobSchema (pattern : MediaPattern) (maxSize : Option Value) :
    Rereads follow (Field.blobSchema pattern maxSize) := by
  have single {s : Schema} (h : s.Scalar) : RereadsField follow (.required s) :=
    .of_value h.rereads.required h.default?_eq_none
  have current : Rereads follow (.fields (blobFields pattern maxSize)) := by
    refine rereads_fields (by simp [Entries.keys, blobFields]) ?_
    exact forall_mem_blobFields (P := RereadsField follow) single
      (.of_value rereads_linkSchema.required rfl) pattern maxSize
  have older : Rereads follow (.fields (olderBlobFields pattern)) := by
    refine rereads_fields (by simp [Entries.keys, olderBlobFields]) ?_
    exact forall_mem_olderBlobFields (P := RereadsField follow) single pattern
  intro v m path hv hm
  rw [outcome_blobSchema_iff] at hm ⊢
  rcases hm with hm | ⟨⟨f, hf⟩, hm⟩
  · exact .inl (current hv hm)
  · refine .inr ⟨⟨f, ?_⟩, older hv hm⟩
    -- what the older form keeps under the keys of the current one is what was given
    cases hv with
    | @object es hes =>
      obtain ⟨ns, rfl⟩ := exists_entries hm
      refine refuses_congr (fun key => ?_) hf
      rw [Value.find?_encodeEntries, find?_of_olderBlob hm]
      cases hx : es.find? key with
      | none => rfl
      | some x => rw [Option.map_some, ((Value.IsJson.object hes).found hx).encode_eq]
    | _ => simp [Schema.fields, checkWith, Check.fail] at hm

end Returns

end Schema

end Lexicon
