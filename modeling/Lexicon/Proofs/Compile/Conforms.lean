import Lexicon.Proofs.Compile.Object
import Lexicon.Proofs.Document.WellFormed
import Lexicon.Proofs.Schema.Decides

/-!
# What fields mean

A field that refers to nothing else says by its type and its options which values conform to it, and
which parts of a value are brought into normal form: bytes are decoded, arrays become lists, and in
links and blobs the declared keys come first. Main statement: the compiled validator of such a field
accepts exactly the values that conform to it, makes the normal form of them, and finds a failure in
every other value.
-/

namespace Lexicon

/-- The entries with the given keys, in that order, and then the others as they are. -/
def Entries.front (keys : List String) (es : Entries Value) : Entries Value :=
  keys.filterMap (fun key => (es.find? key).map (key, ·)) ++ es.filter fun e => e.1 ∉ keys

namespace Field

/-! ### Options -/

/-- What the language declares for the type of a field is in the declared form where the field says
it. -/
def Declared (f : Field) : Prop :=
  ∀ key s y, (key, s) ∈ Language.options f.type → f.options.find? key = some y → s.Accepts y

/-- The types of fields that neither refer to definitions nor have items. -/
def scalarTypes : List String :=
  ["string", "boolean", "integer", "bytes", "blob", "cid-link", "unknown"]

/-- A field that refers to no definition, or an array of such fields, with declared options. -/
inductive Direct : Field → Prop
  | scalar {f : Field} {type : String} (known : type ∈ scalarTypes) (type_eq : f.type = .str type)
      (declared : f.Declared) : Direct f
  | array {options : Entries Value} {item : Field} {description : Value}
      (declared : Declared ⟨.str "array", options, some item, description⟩) (items : Direct item) :
      Direct ⟨.str "array", options, some item, description⟩

/-- The lower bound that an option gives. -/
def AtLeast (f : Field) (key : String) (k : Int) : Prop :=
  ∀ m, f.options.find? key = some (.int m) → m ≤ k

/-- The upper bound that an option gives. -/
def AtMost (f : Field) (key : String) (k : Int) : Prop :=
  ∀ m, f.options.find? key = some (.int m) → k ≤ m

/-- The globs of the media types that a field takes. -/
def globs (f : Field) : List String :=
  match f.options.find? "accept" with
  | some (.list items) | some (.tuple items) => items.filterMap Value.str?
  | _ => []

/-! ### Values that conform -/

/-- A fixed value counts before a list of allowed values, and that before everything else. Values
are compared with their kinds: the integer 1, the truth value and the double are three values. -/
def Chooses (f : Field) (v : Value) (otherwise : Prop) : Prop :=
  match f.options.find? "const" with
  | some x => v.identical x = true
  | none =>
    match f.options.find? "enum" with
    | some values => ∃ xs, values.elements = .ok xs ∧ ∃ x ∈ xs, v.identical x = true
    | none => otherwise

/-- A text with the format of a field whose bytes and characters are within the bounds. -/
structure TakesText (f : Field) (t : String) : Prop where
  format : ∀ name, f.options.find? "format" = some (.str name) →
    ∃ format, Format.ofName? name = some format ∧ format.accepts t = true
  least : f.AtLeast "minLength" t.utf8ByteSize
  most : f.AtMost "maxLength" t.utf8ByteSize
  leastGraphemes : f.AtLeast "minGraphemes" (Text.Grapheme.count t.toList)
  mostGraphemes : f.AtMost "maxGraphemes" (Text.Grapheme.count t.toList)

/-- Any media type, or one that a glob of the field matches. -/
def TakesMedia (f : Field) (t : String) : Prop :=
  if f.globs = [] ∨ "*/*" ∈ f.globs then MediaPattern.IsMediaType t.toList
  else ∃ glob ∈ f.globs, MediaPattern.Matches glob.toList t.toList

/-- An object with a text under `$link`. -/
def IsLink (es : Entries Value) : Prop :=
  ∃ t, es.find? "$link" = some (.str t)

/-- The entries of a blob: its type, a link, a media type and a size. -/
structure IsBlob (f : Field) (es : Entries Value) : Prop where
  type : es.find? "$type" = some (.str "blob")
  ref : ∃ links : Entries Value, es.find? "ref" = some (.object links) ∧ IsLink links
  mimeType : ∃ t, es.find? "mimeType" = some (.str t) ∧ f.TakesMedia t
  size : ∃ k, es.find? "size" = some (.int k) ∧ 0 ≤ k ∧ f.AtMost "maxSize" k

/-- The entries of a blob of the older form: a content identifier and a media type. -/
structure IsOlderBlob (f : Field) (es : Entries Value) : Prop where
  cid : ∃ t, es.find? "cid" = some (.str t)
  mimeType : ∃ t, es.find? "mimeType" = some (.str t) ∧ f.TakesMedia t

/-- A value conforms to a field of the named type, arrays apart. -/
def ConformsTo (f : Field) (type : String) (v : Value) : Prop :=
  match type with
  | "string" => f.Chooses v (∃ t, v = .str t ∧ f.TakesText t)
  | "boolean" => f.Chooses v (∃ b, v = .bool b)
  | "integer" => f.Chooses v (∃ k, v = .int k ∧ f.AtLeast "minimum" k ∧ f.AtMost "maximum" k)
  | "bytes" =>
    ∃ b, Schema.Spells v b ∧ f.AtLeast "minLength" b.length ∧ f.AtMost "maxLength" b.length
  | "blob" => ∃ es, v = .object es ∧ (f.IsBlob es ∨ f.IsOlderBlob es)
  | "cid-link" => ∃ es, v = .object es ∧ IsLink es
  | "unknown" => True
  | _ => False

/-- A value conforms to a field. -/
def Conforms : Field → Value → Prop
  | ⟨.str "array", options, some item, description⟩, v =>
    let f : Field := ⟨.str "array", options, some item, description⟩
    ∃ xs, (v = .list xs ∨ v = .tuple xs) ∧ f.AtLeast "minLength" xs.length ∧
      f.AtMost "maxLength" xs.length ∧ ∀ x ∈ xs, item.Conforms x
  | ⟨.str type, options, items, description⟩, v =>
    ConformsTo ⟨.str type, options, items, description⟩ type v
  | _, _ => False

/-! ### Normal forms -/

/-- The normal form of a value of the named type, arrays apart: only bytes, links and blobs are
changed. -/
def NormalizesTo (f : Field) (type : String) (v n : Value) : Prop :=
  match type with
  | "bytes" => ∃ b, Schema.Spells v b ∧ n = .bytes b
  | "blob" => ∃ es : Entries Value, v = .object es ∧
    ((f.IsBlob es ∧ ∃ links : Entries Value, es.find? "ref" = some (.object links) ∧
        n = .object ((es.insert "ref" (.object (links.front ["$link"]))).front
          ["$type", "ref", "mimeType", "size"])) ∨
      (¬ f.IsBlob es ∧ n = .object (es.front ["cid", "mimeType"])))
  | "cid-link" => ∃ es : Entries Value, v = .object es ∧ n = .object (es.front ["$link"])
  | _ => n = v

/-- The normal form of a value by a field; an array becomes the list of the normal forms of its
items. -/
def Normalizes : Field → Value → Value → Prop
  | ⟨.str "array", _, some item, _⟩, v, n =>
    ∃ xs ys, (v = .list xs ∨ v = .tuple xs) ∧ List.Forall₂ item.Normalizes xs ys ∧ n = .list ys
  | ⟨.str type, options, items, description⟩, v, n =>
    NormalizesTo ⟨.str type, options, items, description⟩ type v n
  | _, _, _ => False

/-- The list of the allowed values of a truth value, which the language does not declare, can be
walked through where it counts. -/
def Enumerable : Field → Prop
  | ⟨.str "array", _, some item, _⟩ => item.Enumerable
  | f => f.type = .str "boolean" → f.options.find? "const" = none →
    ∀ y, f.options.find? "enum" = some y → ∃ xs, y.elements = .ok xs

/-! ### What declared options compile to -/

section Declared

variable {f : Field}

/-- An option that the language declares as an integer is one. -/
theorem Declared.exists_int (h : f.Declared) {key : String} {bounds : Bounds}
    (hs : (key, .integer bounds) ∈ Language.options f.type) {y : Value}
    (hy : f.options.find? key = some y) : ∃ m, y = .int m :=
  (h key _ y hs hy).exists_int

/-- An option that the language declares as a list of texts is one. -/
theorem Declared.exists_texts (h : f.Declared) {key : String}
    (hs : (key, Language.texts) ∈ Language.options f.type) {y : Value}
    (hy : f.options.find? key = some y) :
    ∃ ts : List String, y = .list (ts.map .str) ∨ y = .tuple (ts.map .str) := by
  obtain ⟨xs, hxs, texts⟩ := (h key _ y hs hy).items
  obtain ⟨ts, hts⟩ := List.exists_forall₂ fun x hx => (texts x hx).exists_str
  obtain rfl : xs = ts.map .str := by
    rw [← List.forall₂_eq_eq_eq, List.forall₂_map_right_iff]
    exact hts
  exact ⟨ts, hxs⟩

theorem Declared.whole_bounds (h : f.Declared) {s : Schema} (integers : ∃ b, s = .integer b)
    {lower upper : String} (hlower : (lower, s) ∈ Language.options f.type)
    (hupper : (upper, s) ∈ Language.options f.type) : (f.bounds lower upper).Whole := by
  obtain ⟨b, rfl⟩ := integers
  exact ⟨fun y hy => h.exists_int hlower (find?_of_option? hy),
    fun y hy => h.exists_int hupper (find?_of_option? hy)⟩

theorem option?_eq_int_iff {key : String} {m : Int} :
    f.option? key = some (.int m) ↔ f.options.find? key = some (.int m) :=
  ⟨find?_of_option?, fun h => option?_of_find? h (by simp)⟩

theorem holds_bounds_iff {lower upper : String} {k : Int} :
    (f.bounds lower upper).Holds k ↔ f.AtLeast lower k ∧ f.AtMost upper k := by
  simp only [Bounds.Holds, bounds, option?_eq_int_iff, AtLeast, AtMost]

theorem decides_addDefault {s : Schema} {R : Value → Value → Prop} (h : s.Decides R) :
    (f.addDefault s).Decides R := by
  unfold addDefault
  split
  · exact h.withDefault _
  · exact h

/-- A fixed value or a list of allowed values decides in place of another schema. -/
theorem decides_of_constSchema? {fixed : Option Schema} (hfixed : f.constSchema? = .ok fixed)
    {s : Schema} {P : Value → Prop} (h : fixed = none → s.Decides fun v n => P v ∧ n = v) :
    (fixed.getD s).Decides fun v n => f.Chooses v (P v) ∧ n = v := by
  unfold constSchema? at hfixed
  split at hfixed
  · next value given =>
    obtain rfl := Except.ok.inj hfixed
    simp only [Chooses, given]
    exact Schema.decides_literal value
  · next values absent given =>
    obtain ⟨xs, hxs, hfixed⟩ := Except.bind_eq_ok_iff.mp hfixed
    obtain rfl := Except.ok.inj hfixed
    simpa [Chooses, absent, given, hxs] using Schema.decides_enum xs
  · next absent absent' =>
    obtain rfl := Except.ok.inj hfixed
    simp only [Chooses, absent, absent']
    exact h rfl

/-- The format of a text field is known, and its texts are those that have it. -/
theorem Declared.exists_format (h : f.Declared) (type : f.type = .str "string") :
    ∃ format?, f.format? = .ok format? ∧ ∀ t : String,
      (∀ format, format? = some format → format.accepts t = true) ↔
        ∀ name, f.options.find? "format" = some (.str name) →
          ∃ format, Format.ofName? name = some format ∧ format.accepts t = true := by
  have declared := Language.mem_options "string" rfl
    (e := ("format", .enum (Format.all.map (.str ·.name)))) (by simp)
  unfold format?
  cases hy : f.options.find? "format" with
  | none => exact ⟨none, by rw [option?_of_absent hy], by simp⟩
  | some y =>
    obtain ⟨x, hx, same⟩ := (h _ _ _ (type ▸ declared) hy).exists_mem_of_enum
    obtain ⟨format, -, rfl⟩ := List.mem_map.mp hx
    obtain rfl := Definition.identical_str_eq_true_iff.mp same
    refine ⟨some format, ?_, by simp [Format.ofName?_name]⟩
    simp [option?_of_find? hy, Value.isKey, Value.str?, Format.ofName?_name]

theorem Declared.decides_stringSchema (h : f.Declared) (type : f.type = .str "string") :
    ∃ s, f.stringSchema = .ok s ∧
      s.Decides fun v n => f.Chooses v (∃ t, v = .str t ∧ f.TakesText t) ∧ n = v := by
  have declared {key : String} {s : Schema} (hs : (key, s) ∈ _) : (key, s) ∈
      Language.options f.type := type ▸ Language.mem_options "string" rfl hs
  obtain ⟨fixed, hfixed⟩ := exists_constSchema_iff.mpr fun _ y hy => by
    obtain ⟨ts, rfl | rfl⟩ := h.exists_texts (declared (by simp)) hy <;> exact ⟨_, rfl⟩
  obtain ⟨format?, hformat, accepts⟩ := h.exists_format type
  have bytes : (f.bounds "minLength" "maxLength").Whole :=
    h.whole_bounds (s := Language.nonNegative) ⟨_, rfl⟩ (declared (by simp)) (declared (by simp))
  have graphemes : (f.bounds "minGraphemes" "maxGraphemes").Whole :=
    h.whole_bounds (s := Language.nonNegative) ⟨_, rfl⟩ (declared (by simp)) (declared (by simp))
  let rules : TextRules := ⟨format?, none, f.bounds "minLength" "maxLength",
    f.bounds "minGraphemes" "maxGraphemes"⟩
  have keeps (t : String) : rules.Keeps t ↔ f.TakesText t := by
    constructor
    · rintro ⟨format, -, bytes, graphemes⟩
      obtain ⟨least, most⟩ := holds_bounds_iff.mp bytes
      obtain ⟨leastGraphemes, mostGraphemes⟩ := holds_bounds_iff.mp graphemes
      exact ⟨(accepts t).mp format, least, most, leastGraphemes, mostGraphemes⟩
    · rintro ⟨format, least, most, leastGraphemes, mostGraphemes⟩
      exact ⟨(accepts t).mpr format, nofun, holds_bounds_iff.mpr ⟨least, most⟩,
        holds_bounds_iff.mpr ⟨leastGraphemes, mostGraphemes⟩⟩
  refine ⟨fixed.getD (.string rules), ?_, decides_of_constSchema? hfixed fun _ => ?_⟩
  · cases fixed <;> simp [stringSchema, hfixed, textRules, hformat, Except.pure_eq_ok, rules]
  · simpa only [keeps] using @Schema.decides_string rules bytes graphemes


/-! ### Links and blobs -/

theorem undeclared_eq (fields : List (String × Schema)) (es : Entries Value) :
    Schema.undeclared fields es = es.filter fun e => e.1 ∉ Entries.keys fields := by
  refine List.filter_congr fun e _ => ?_
  rw [Bool.eq_iff_iff, Bool.not_eq_true', ← Bool.not_eq_true, Entries.has_eq_true_iff,
    decide_eq_true_eq]

theorem filterMap_find? {es : Entries Value} {keys : List String} {ys : List Value}
    (h : List.Forall₂ (fun key y => es.find? key = some y) keys ys) :
    keys.filterMap (fun key => (Entries.find? es key).map (key, ·)) = keys.zip ys := by
  induction h with
  | nil => rfl
  | cons hy _ ih => simp [hy, ih]

theorem front_eq {es : Entries Value} {keys : List String} (ys : List Value)
    (h : List.Forall₂ (fun key y => es.find? key = some y) keys ys) :
    es.front keys = keys.zip ys ++ es.filter fun e => e.1 ∉ keys := by
  rw [Entries.front, filterMap_find? h]

theorem filter_insert {es : Entries Value} {keys : List String} {key : String} (x : Value)
    (h : key ∈ keys) :
    (es.insert key x).filter (fun e => e.1 ∉ keys) = es.filter fun e => e.1 ∉ keys := by
  induction es with
  | nil => simp [Entries.insert, h]
  | cons e rest ih =>
    obtain ⟨k, v⟩ := e
    simp only [Entries.insert]
    split_ifs with same
    · subst same
      simp [h]
    · simp only [List.filter_cons, ih]

/-- An object whose declared fields must all be present and are taken as they are puts these in
front. -/
theorem decides_keptFields {fields : List (String × Schema)} {P : String → Value → Prop}
    (h : ∀ e ∈ fields, e.2.Decides fun v n => P e.1 v ∧ n = v)
    (required : ∀ e ∈ fields, e.2.isRequired = true)
    (plain : ∀ e ∈ fields, e.2.default? = none) :
    (Schema.fields fields).Decides fun v n => ∃ es : Entries Value, v = .object es ∧
      (∀ key ∈ Entries.keys fields, ∃ x, es.find? key = some x ∧ P key x) ∧
      n = .object (es.front (Entries.keys fields)) := by
  refine (Schema.decides_fields (R := fun key v n => P key v ∧ n = v) h required plain).congr
    fun v n => exists_congr fun es => ?_
  constructor
  · rintro ⟨ys, rfl, found, rfl⟩
    have given : List.Forall₂ (fun key y => Entries.find? es key = some y ∧ P key y)
        (Entries.keys fields) ys := by
      refine List.forall₂_map_left_iff.mpr (found.imp fun e y hy => ?_)
      obtain ⟨x, hx, holds, rfl⟩ := hy
      exact ⟨hx, holds⟩
    refine ⟨rfl, fun key hkey => ?_, ?_⟩
    · obtain ⟨x, -, hx⟩ := given.exists_right hkey
      exact ⟨x, hx⟩
    · rw [front_eq _ (given.imp fun _ _ hy => hy.1), undeclared_eq]
  · rintro ⟨rfl, holds, rfl⟩
    obtain ⟨ys, given⟩ := List.exists_forall₂ holds
    refine ⟨ys, rfl, ?_, ?_⟩
    · refine (List.forall₂_map_left_iff.mp given).imp fun e y hy => ⟨y, hy.1, hy.2, rfl⟩
    · rw [front_eq _ (given.imp fun _ _ hy => hy.1), undeclared_eq]

theorem decides_linkSchema :
    linkSchema.Decides fun v n => ∃ es : Entries Value, v = .object es ∧ IsLink es ∧
      n = .object (es.front ["$link"]) := by
  refine (decides_keptFields (P := fun _ v => ∃ t, v = .str t) ?_ ?_ ?_).congr fun v n => ?_
  · simpa using Schema.decides_text.required
  · simp [Schema.isRequired]
  · simp [Schema.default?, Schema.text]
  · simp [Entries.keys, IsLink]

theorem mediaPattern_of_texts {y : Value} {ts : List String}
    (hy : y = .list (ts.map .str) ∨ y = .tuple (ts.map .str)) :
    mediaPattern y = .ok (if ts = [] ∨ "*/*" ∈ ts then .any else .globs ts) := by
  have elements : y.elements = .ok (ts.map .str) := by rcases hy with rfl | rfl <;> rfl
  have isTrue : y.isTrue = true ↔ ts ≠ [] := by
    rcases hy with rfl | rfl <;> simp [Value.isTrue]
  have found : (Value.str "*/*").isElement y =
      .ok ((ts.map Value.str).any (Value.same (.str "*/*"))) := by
    rcases hy with rfl | rfl <;> rfl
  have foundIff : (ts.map Value.str).any (Value.same (.str "*/*")) = true ↔ "*/*" ∈ ts := by
    rw [Definition.any_same_eq_true_iff]
    simp
  unfold mediaPattern
  by_cases empty : ts = []
  · rw [if_neg (by simp [isTrue, empty]), if_pos (.inl empty)]
    rfl
  · rw [if_pos (isTrue.mpr empty), found, Except.ok_bind, elements, Except.ok_bind]
    by_cases all : "*/*" ∈ ts
    · rw [if_pos (foundIff.mpr all), if_pos (.inr all)]
      rfl
    · rw [if_neg (mt foundIff.mp all), if_neg (not_or.mpr ⟨empty, all⟩), Except.bind_eq_ok_iff]
      refine ⟨ts, ?_, rfl⟩
      rw [Except.mapM_eq_ok_iff, List.forall₂_map_left_iff, List.forall₂_same]
      exact fun _ _ => rfl

/-- The media types that a blob field takes have a pattern. -/
theorem Declared.exists_mediaPattern (h : f.Declared) (type : f.type = .str "blob") :
    ∃ pattern, mediaPattern (f.option "accept") = .ok pattern ∧
      (∀ t, pattern.accepts t = true ↔ f.TakesMedia t) ∧
      ((f.option "accept").isTrue = true → ∃ xs, (f.option "accept").elements = .ok xs) := by
  have declared := Language.mem_options "blob" rfl (e := ("accept", Language.texts)) (by simp)
  cases hy : f.options.find? "accept" with
  | none =>
    have absent : f.option "accept" = .null := by
      simp [Field.option, Entries.getValue, hy, Value.ofOption]
    rw [absent]
    refine ⟨.any, rfl, fun t => ?_, fun yes => absurd yes Bool.false_ne_true⟩
    rw [TakesMedia, if_pos (.inl (by simp [globs, hy]))]
    exact MediaPattern.isMediaType_eq_true_iff
  | some y =>
    have given : f.option "accept" = y := by
      simp [Field.option, Entries.getValue, hy, Value.ofOption]
    obtain ⟨ts, hts⟩ := h.exists_texts (type ▸ declared) hy
    have globs : f.globs = ts := by
      have texts : (ts.map Value.str).filterMap Value.str? = ts := by
        simp [List.filterMap_map, Function.comp_def, Value.str?]
      rcases hts with rfl | rfl <;> simpa [Field.globs, hy] using texts
    rw [given]
    refine ⟨_, mediaPattern_of_texts hts, fun t => ?_, fun _ => ⟨ts.map .str, ?_⟩⟩
    · rw [TakesMedia, globs]
      split_ifs with all
      · exact MediaPattern.isMediaType_eq_true_iff
      · exact MediaPattern.accepts_globs_iff fun empty => all (.inl empty)
    · rcases hts with rfl | rfl <;> rfl

section Blob

variable {mediaType size : Schema}

/-- The fields of a blob: all are taken as they are but the link, which is brought into normal
form. -/
theorem decides_blobFields
    (media : mediaType.Decides fun v n => (∃ t, v = .str t ∧ f.TakesMedia t) ∧ n = v)
    (bytes : size.Decides fun v n => (∃ k, v = .int k ∧ 0 ≤ k ∧ f.AtMost "maxSize" k) ∧ n = v)
    (mediaPlain : mediaType.default? = none) (bytesPlain : size.default? = none) :
    (Schema.fields [("$type", .required (.literal (.str "blob"))), ("ref", .required linkSchema),
      ("mimeType", .required mediaType), ("size", .required size)]).Decides fun v n =>
        ∃ es : Entries Value, v = .object es ∧ f.IsBlob es ∧
          ∃ links : Entries Value, es.find? "ref" = some (.object links) ∧
            n = .object ((es.insert "ref" (.object (links.front ["$link"]))).front
              ["$type", "ref", "mimeType", "size"]) := by
  let R (key : String) (v n : Value) : Prop := match key with
    | "$type" => v.identical (.str "blob") = true ∧ n = v
    | "ref" => ∃ links : Entries Value, v = .object links ∧ IsLink links ∧
        n = .object (links.front ["$link"])
    | "mimeType" => (∃ t, v = .str t ∧ f.TakesMedia t) ∧ n = v
    | _ => (∃ k, v = .int k ∧ 0 ≤ k ∧ f.AtMost "maxSize" k) ∧ n = v
  refine (Schema.decides_fields (R := R) ?_ ?_ ?_).congr fun v n => ?_
  · simp only [List.forall_mem_cons]
    exact ⟨(Schema.decides_literal _).required, decides_linkSchema.required, media.required,
      bytes.required, nofun⟩
  · simp [Schema.isRequired]
  · simp [Schema.default?, linkSchema, Schema.fields, mediaPlain, bytesPlain]
  · have normal {es links : Entries Value} {type mime size : Value}
        (htype : es.find? "$type" = some type) (hmime : es.find? "mimeType" = some mime)
        (hsize : es.find? "size" = some size) :
        (es.insert "ref" (.object (links.front ["$link"]))).front
          ["$type", "ref", "mimeType", "size"] =
        [("$type", type), ("ref", .object (links.front ["$link"])), ("mimeType", mime),
          ("size", size)] ++ es.filter fun e => e.1 ∉ ["$type", "ref", "mimeType", "size"] := by
      rw [front_eq [type, .object (links.front ["$link"]), mime, size],
        filter_insert _ (by simp)]
      · rfl
      · simp [Entries.find?_insert, htype, hmime, hsize]
    simp only [List.forall₂_cons_left_iff, List.forall₂_nil_left_iff, R, undeclared_eq]
    constructor
    · rintro ⟨es, _, rfl, ⟨_, _, ⟨type, htype, ⟨named, rfl⟩⟩,
        ⟨_, _, ⟨_, href, links, rfl, link, rfl⟩, ⟨_, _, ⟨mime, hmime, takes, rfl⟩,
        ⟨_, _, ⟨size, hsize, within, rfl⟩, rfl, rfl⟩, rfl⟩, rfl⟩, rfl⟩, rfl⟩
      obtain rfl := Definition.identical_str_eq_true_iff.mp named
      obtain ⟨t, rfl, takes⟩ := takes
      obtain ⟨k, rfl, within⟩ := within
      refine ⟨es, rfl, ⟨htype, ⟨links, href, link⟩, ⟨t, hmime, takes⟩, ⟨k, hsize, within⟩⟩, links,
        href, ?_⟩
      rw [normal htype hmime hsize]
      rfl
    · rintro ⟨es, rfl, ⟨htype, ⟨_, href, link⟩, ⟨t, hmime, takes⟩, ⟨k, hsize, within⟩⟩, links,
        href', rfl⟩
      obtain rfl := Value.object.inj (Option.some.inj (href.symm.trans href'))
      refine ⟨es, _, rfl, ⟨_, _, ⟨_, htype, Definition.identical_str_eq_true_iff.mpr rfl, rfl⟩,
        ⟨_, _, ⟨_, href, _, rfl, link, rfl⟩, ⟨_, _, ⟨_, hmime, ⟨t, rfl, takes⟩, rfl⟩,
        ⟨_, _, ⟨_, hsize, ⟨k, rfl, within⟩, rfl⟩, rfl, rfl⟩, rfl⟩, rfl⟩, rfl⟩, ?_⟩
      rw [normal htype hmime hsize]
      rfl

/-- The fields of a blob of the older form. -/
theorem decides_olderBlobFields
    (media : mediaType.Decides fun v n => (∃ t, v = .str t ∧ f.TakesMedia t) ∧ n = v)
    (mediaPlain : mediaType.default? = none) :
    (Schema.fields [("cid", .required .text), ("mimeType", .required mediaType)]).Decides
      fun v n => ∃ es : Entries Value, v = .object es ∧ f.IsOlderBlob es ∧
        n = .object (es.front ["cid", "mimeType"]) := by
  let P (key : String) (v : Value) : Prop := match key with
    | "cid" => ∃ t, v = .str t
    | _ => ∃ t, v = .str t ∧ f.TakesMedia t
  refine (decides_keptFields (P := P) ?_ ?_ ?_).congr fun v n => ?_
  · simp only [List.forall_mem_cons]
    exact ⟨Schema.decides_text.required, media.required, List.forall_mem_nil _⟩
  · simp [Schema.isRequired]
  · simp [Schema.default?, Schema.text, mediaPlain]
  · have older (es : Entries Value) : (∃ t, es.find? "cid" = some (.str t)) ∧
        (∃ t, es.find? "mimeType" = some (.str t) ∧ f.TakesMedia t) ↔ f.IsOlderBlob es := by
      constructor
      · rintro ⟨cid, mime⟩
        exact ⟨cid, mime⟩
      · rintro ⟨cid, mime⟩
        exact ⟨cid, mime⟩
    simp [Entries.keys, P, ← older]

end Blob

/-- A blob is judged by its own form first, and then by the older one. -/
theorem decides_blobSchema {pattern : MediaPattern}
    (media : ∀ t, pattern.accepts t = true ↔ f.TakesMedia t)
    (size : (Bounds.mk (some (.int 0)) (f.option? "maxSize")).Whole) :
    (blobSchema pattern (f.option? "maxSize")).Decides fun v n =>
      ConformsTo f "blob" v ∧ NormalizesTo f "blob" v n := by
  have mediaType : (Schema.string { pattern := some pattern }).Decides fun v n =>
      (∃ t, v = .str t ∧ f.TakesMedia t) ∧ n = v := by
    refine (Schema.decides_string Bounds.whole_unbounded Bounds.whole_unbounded).congr fun v n => ?_
    have keeps (t : String) : TextRules.Keeps { pattern := some pattern } t ↔ f.TakesMedia t := by
      rw [← media]
      exact ⟨fun h => h.pattern _ rfl,
        fun h => ⟨nofun, fun _ hp => Option.some.inj hp ▸ h, ⟨nofun, nofun⟩, ⟨nofun, nofun⟩⟩⟩
    simp only [keeps]
  have bytes : (Schema.integer ⟨some (.int 0), f.option? "maxSize"⟩).Decides fun v n =>
      (∃ k, v = .int k ∧ 0 ≤ k ∧ f.AtMost "maxSize" k) ∧ n = v := by
    refine (Schema.decides_integer size).congr fun v n => ?_
    simp [Bounds.Holds, option?_eq_int_iff, AtMost]
  refine (Schema.decides_anyOf_pair (decides_blobFields mediaType bytes rfl rfl)
    (decides_olderBlobFields mediaType rfl) "blob").congr fun v n => ?_
  constructor
  · rintro (⟨es, rfl, current, links, href, rfl⟩ | ⟨other, es, rfl, older, rfl⟩)
    · exact ⟨⟨es, rfl, .inl current⟩, es, rfl, .inl ⟨current, links, href, rfl⟩⟩
    · refine ⟨⟨es, rfl, .inr older⟩, es, rfl, .inr ⟨fun current => ?_, rfl⟩⟩
      obtain ⟨links, href, link⟩ := current.ref
      exact other _ ⟨es, rfl, current, links, href, rfl⟩
  · rintro ⟨⟨_, rfl, conforms⟩, es, same, normal⟩
    obtain rfl := Value.object.inj same
    rcases normal with ⟨current, links, href, rfl⟩ | ⟨other, rfl⟩
    · exact .inl ⟨_, rfl, current, links, href, rfl⟩
    · refine .inr ⟨?_, _, rfl, conforms.resolve_left other, rfl⟩
      rintro _ ⟨_, same, current, -⟩
      exact other (Value.object.inj same ▸ current)

/-! ### Fields of every type -/

theorem spells_unique {v : Value} {b b' : List UInt8} (h : Schema.Spells v b)
    (h' : Schema.Spells v b') : b = b' := by
  have read : (readBytes v [] : Check Unit _).outcome = .ok b :=
    Schema.outcome_readBytes_eq_ok_iff.mpr h
  have read' : (readBytes v [] : Check Unit _).outcome = .ok b' :=
    Schema.outcome_readBytes_eq_ok_iff.mpr h'
  exact Except.ok.inj (read.symm.trans read')

/-- A compiled field takes what conforms to a field of the named type, and makes the normal form of
it. -/
def TakesScalar (f : Field) (type : String) (c : CompiledField) : Prop :=
  c.schema.Decides fun v n => ConformsTo f type v ∧ NormalizesTo f type v n

theorem takesScalar_boolean {fixed : Option Schema} (hfixed : f.constSchema? = .ok fixed) :
    f.TakesScalar "boolean" ⟨f.addDefault (fixed.getD .boolean), .boolean⟩ :=
  decides_addDefault (decides_of_constSchema? hfixed fun _ => Schema.decides_boolean)

namespace Declared

theorem exists_string (h : f.Declared) (type : f.type = .str "string") :
    ∃ c, f.compileString = .ok c ∧ f.TakesScalar "string" c := by
  obtain ⟨s, hs, decides⟩ := h.decides_stringSchema type
  obtain ⟨known, hknown⟩ : ∃ known, f.elements "knownValues" = .ok known := by
    unfold elements
    cases hy : f.options.find? "knownValues" with
    | none => exact ⟨[], rfl⟩
    | some y =>
      have declared := Language.mem_options "string" rfl (e := ("knownValues", Language.texts))
        (by simp)
      obtain ⟨ts, rfl | rfl⟩ := h.exists_texts (type ▸ declared) hy <;> exact ⟨_, rfl⟩
  refine ⟨⟨f.addDefault s, .string (f.option "format") known⟩, ?_, decides_addDefault decides⟩
  simp only [compileString, hs, hknown, Except.ok_bind]
  rfl

theorem exists_integer (h : f.Declared) (type : f.type = .str "integer") (nsid : String) :
    ∃ c, f.compileScalar? nsid "integer" = some (.ok c) ∧ f.TakesScalar "integer" c := by
  have declared {key : String} {s : Schema} (hs : (key, s) ∈ _) : (key, s) ∈
      Language.options f.type := type ▸ Language.mem_options "integer" rfl hs
  obtain ⟨fixed, hfixed⟩ := exists_constSchema_iff.mpr fun _ y hy => by
    obtain ⟨xs, rfl | rfl, -⟩ :=
      (h "enum" (.array Language.anyInteger {}) y (declared (by simp)) hy).items <;>
    exact ⟨xs, rfl⟩
  have whole : (f.bounds "minimum" "maximum").Whole :=
    h.whole_bounds (s := Language.anyInteger) ⟨_, rfl⟩ (declared (by simp)) (declared (by simp))
  refine ⟨_, congrArg some (Except.bind_eq_ok_iff.mpr ⟨fixed, hfixed, rfl⟩),
    decides_addDefault (decides_of_constSchema? hfixed fun _ => ?_)⟩
  exact (Schema.decides_integer whole).congr fun v n => by simp only [holds_bounds_iff]

theorem takes_bytes (h : f.Declared) (type : f.type = .str "bytes") :
    f.TakesScalar "bytes" ⟨.bytes (f.bounds "minLength" "maxLength"), .bytes⟩ := by
  have declared {key : String} {s : Schema} (hs : (key, s) ∈ _) : (key, s) ∈
      Language.options f.type := type ▸ Language.mem_options "bytes" rfl hs
  have whole : (f.bounds "minLength" "maxLength").Whole :=
    h.whole_bounds (s := Language.nonNegative) ⟨_, rfl⟩ (declared (by simp [Language.lengths]))
      (declared (by simp [Language.lengths]))
  refine (Schema.decides_bytes whole).congr fun v n => ?_
  constructor
  · rintro ⟨b, spelled, within, rfl⟩
    exact ⟨⟨b, spelled, holds_bounds_iff.mp within⟩, b, spelled, rfl⟩
  · rintro ⟨⟨b, spelled, within⟩, b', spelled', rfl⟩
    obtain rfl := spells_unique spelled spelled'
    exact ⟨b, spelled, holds_bounds_iff.mpr within, rfl⟩

theorem exists_blob (h : f.Declared) (type : f.type = .str "blob") :
    ∃ c, f.compileBlob = .ok c ∧ f.TakesScalar "blob" c := by
  obtain ⟨pattern, hpattern, media, accepted⟩ := h.exists_mediaPattern type
  have size : (Bounds.mk (some (.int 0)) (f.option? "maxSize")).Whole := by
    refine ⟨fun _ hy => ⟨0, (Option.some.inj hy).symm⟩, fun y hy => ?_⟩
    have declared := Language.mem_options "blob" rfl (e := ("maxSize", Language.nonNegative))
      (by simp)
    exact h.exists_int (type ▸ declared) (find?_of_option? hy)
  simp only [compileBlob, hpattern, Except.ok_bind]
  split_ifs with given
  · obtain ⟨xs, hxs⟩ := accepted given
    rw [hxs]
    exact ⟨_, rfl, decides_blobSchema media size⟩
  · exact ⟨_, rfl, decides_blobSchema media size⟩

theorem takes_link : f.TakesScalar "cid-link" ⟨linkSchema, .cidLink⟩ := by
  refine decides_linkSchema.congr fun v n => ?_
  constructor
  · rintro ⟨es, rfl, link, rfl⟩
    exact ⟨⟨es, rfl, link⟩, es, rfl, rfl⟩
  · rintro ⟨⟨_, rfl, link⟩, es, same, rfl⟩
    obtain rfl := Value.object.inj same
    exact ⟨_, rfl, link, rfl⟩

theorem takes_unknown : f.TakesScalar "unknown" ⟨.any, .unknown⟩ :=
  Schema.decides_any.congr fun _ _ => ⟨fun same => ⟨trivial, same⟩, fun h => h.2⟩

/-- A field of a scalar type compiles, unless it is a truth value, to what takes what conforms to
it. -/
theorem exists_scalar (h : f.Declared) {type : String} (known : type ∈ scalarTypes)
    (other : type ≠ "boolean") (htype : f.type = .str type) (nsid : String) :
    ∃ c, f.compileScalar? nsid type = some (.ok c) ∧ f.TakesScalar type c := by
  simp only [scalarTypes, List.mem_cons, List.not_mem_nil, or_false] at known
  rcases known with rfl | rfl | rfl | rfl | rfl | rfl | rfl
  · obtain ⟨c, hc, takes⟩ := h.exists_string htype
    exact ⟨c, congrArg some hc, takes⟩
  · exact absurd rfl other
  · exact h.exists_integer htype nsid
  · exact ⟨_, rfl, h.takes_bytes htype⟩
  · obtain ⟨c, hc, takes⟩ := h.exists_blob htype
    exact ⟨c, congrArg some hc, takes⟩
  · exact ⟨_, rfl, takes_link⟩
  · exact ⟨_, rfl, takes_unknown⟩

end Declared

end Declared

/-! ### Fields that refer to nothing -/

section Direct

variable {f : Field} {nsid : String} {strict : Bool}

theorem ne_array_of_mem_scalarTypes {type : String} (h : type ∈ scalarTypes) : type ≠ "array" := by
  rintro rfl
  simp [scalarTypes] at h

theorem conforms_of_scalar {type : String} (known : type ∈ scalarTypes) (htype : f.type = .str type)
    (v : Value) : f.Conforms v = ConformsTo f type v := by
  obtain ⟨_, options, items, description⟩ := f
  obtain rfl : _ = Value.str type := htype
  rw [Conforms]
  exact fun _ _ array => ne_array_of_mem_scalarTypes known array

theorem normalizes_of_scalar {type : String} (known : type ∈ scalarTypes)
    (htype : f.type = .str type) (v n : Value) : f.Normalizes v n = NormalizesTo f type v n := by
  obtain ⟨_, options, items, description⟩ := f
  obtain rfl : _ = Value.str type := htype
  rw [Normalizes]
  exact fun _ _ array => ne_array_of_mem_scalarTypes known array

theorem enumerable_of_scalar {type : String} (known : type ∈ scalarTypes)
    (htype : f.type = .str type) :
    f.Enumerable ↔ (type = "boolean" → ∃ fixed, f.constSchema? = .ok fixed) := by
  obtain ⟨_, options, items, description⟩ := f
  obtain rfl : _ = Value.str type := htype
  rw [Enumerable, exists_constSchema_iff]
  · simp
  · rintro _ _ _ ⟨⟩
    exact ne_array_of_mem_scalarTypes known rfl

theorem outcome_compile_of_scalar {type : String} (known : type ∈ scalarTypes)
    (htype : f.type = .str type) {result : Except Fault CompiledField}
    (h : f.compileScalar? nsid type = some result) : (f.compile nsid strict).outcome = result := by
  obtain ⟨_, options, items, description⟩ := f
  obtain rfl : _ = Value.str type := htype
  rw [compile]
  · simp [h]
  · exact fun _ array => ne_array_of_mem_scalarTypes known array
  · exact fun _ _ array => ne_array_of_mem_scalarTypes known array

theorem outcome_compile_boolean (htype : f.type = .str "boolean") :
    (f.compile nsid strict).outcome =
      (fun fixed => ⟨f.addDefault (fixed.getD .boolean), .boolean⟩) <$> f.constSchema? := by
  rw [outcome_compile_of_scalar (by simp [scalarTypes]) htype rfl]
  cases f.constSchema? <;> rfl

theorem outcome_compile_array (options : Entries Value) (item : Field) (description : Value) :
    (Field.compile nsid strict ⟨.str "array", options, some item, description⟩).outcome =
      compileArray options <$> (item.compile nsid strict).outcome := by
  rw [compile, Traced.outcome_bind]
  cases (item.compile nsid strict).outcome <;> rfl

namespace Direct

/-- A field that refers to nothing compiles exactly if the lists that count can be walked
through. -/
theorem exists_compile_iff (h : f.Direct) :
    (∃ c, (f.compile nsid strict).outcome = .ok c) ↔ f.Enumerable := by
  induction h with
  | @scalar f type known htype declared =>
    rw [enumerable_of_scalar known htype]
    by_cases boolean : type = "boolean"
    · subst boolean
      simp only [outcome_compile_boolean htype, Except.map_eq_ok_iff, true_implies]
      exact ⟨fun ⟨_, fixed, hfixed, _⟩ => ⟨fixed, hfixed⟩,
        fun ⟨fixed, hfixed⟩ => ⟨_, fixed, hfixed, rfl⟩⟩
    · obtain ⟨c, hc, -⟩ := declared.exists_scalar known boolean htype nsid
      exact iff_of_true ⟨c, outcome_compile_of_scalar known htype hc⟩ fun h => absurd h boolean
  | @array options item description declared items ih =>
    simp only [Enumerable, ← ih, outcome_compile_array, Except.map_eq_ok_iff]
    exact ⟨fun ⟨_, c, hc, _⟩ => ⟨c, hc⟩, fun ⟨c, hc⟩ => ⟨_, c, hc, rfl⟩⟩

/-- The schema of a compiled field takes what conforms to the field and makes the normal form of
it. -/
theorem decides (h : f.Direct) {c : CompiledField} (hc : (f.compile nsid strict).outcome = .ok c) :
    c.schema.Decides fun v n => f.Conforms v ∧ f.Normalizes v n := by
  induction h generalizing c with
  | @scalar f type known htype declared =>
    simp only [conforms_of_scalar known htype, normalizes_of_scalar known htype]
    by_cases boolean : type = "boolean"
    · subst boolean
      rw [outcome_compile_boolean htype] at hc
      obtain ⟨fixed, hfixed, rfl⟩ := Except.map_eq_ok_iff.mp hc
      exact takesScalar_boolean hfixed
    · obtain ⟨c', hc', takes⟩ := declared.exists_scalar known boolean htype nsid
      rw [outcome_compile_of_scalar known htype hc'] at hc
      exact Except.ok.inj hc ▸ takes
  | @array options item description declared items ih =>
    rw [outcome_compile_array] at hc
    obtain ⟨c, hitem, rfl⟩ := Except.map_eq_ok_iff.mp hc
    let f : Field := ⟨.str "array", options, some item, description⟩
    have length {key : String} (hs : (key, Language.nonNegative) ∈ _) :
        (key, Language.nonNegative) ∈ Language.options f.type := Language.mem_options "array" rfl hs
    have whole : (f.bounds "minLength" "maxLength").Whole :=
      declared.whole_bounds (s := Language.nonNegative) ⟨_, rfl⟩
        (length (by simp [Language.lengths])) (length (by simp [Language.lengths]))
    refine ((ih hitem).array whole).congr fun v n => ?_
    simp only [Conforms, Normalizes, holds_bounds_iff, List.forall₂_and_left]
    constructor
    · rintro ⟨xs, ys, hv, ⟨least, most⟩, ⟨conforms, normal⟩, rfl⟩
      exact ⟨⟨xs, hv, least, most, conforms⟩, xs, ys, hv, normal, rfl⟩
    · rintro ⟨⟨xs, hv, least, most, conforms⟩, xs', ys, hv', normal, rfl⟩
      obtain rfl : xs = xs' := by rcases hv with rfl | rfl <;> simpa using hv'
      exact ⟨xs, ys, hv, ⟨least, most⟩, ⟨conforms, normal⟩, rfl⟩

/-- What conforms has a normal form. -/
theorem exists_normalizes (h : f.Direct) {v : Value} (conforms : f.Conforms v) :
    ∃ n, f.Normalizes v n := by
  induction h generalizing v with
  | @scalar f type known htype declared =>
    rw [conforms_of_scalar known htype] at conforms
    simp only [normalizes_of_scalar known htype]
    simp only [scalarTypes, List.mem_cons, List.not_mem_nil, or_false] at known
    rcases known with rfl | rfl | rfl | rfl | rfl | rfl | rfl
    · exact ⟨v, rfl⟩
    · exact ⟨v, rfl⟩
    · exact ⟨v, rfl⟩
    · obtain ⟨b, spelled, -⟩ := conforms
      exact ⟨.bytes b, b, spelled, rfl⟩
    · obtain ⟨es, rfl, -⟩ := conforms
      by_cases current : f.IsBlob es
      · obtain ⟨links, href, -⟩ := current.ref
        exact ⟨_, es, rfl, .inl ⟨current, links, href, rfl⟩⟩
      · exact ⟨_, es, rfl, .inr ⟨current, rfl⟩⟩
    · obtain ⟨es, rfl, -⟩ := conforms
      exact ⟨_, es, rfl, rfl⟩
    · exact ⟨v, rfl⟩
  | @array options item description declared items ih =>
    obtain ⟨xs, hv, -, -, conforms⟩ := conforms
    obtain ⟨ys, hys⟩ := List.exists_forall₂ fun x hx => ih (conforms x hx)
    exact ⟨.list ys, xs, ys, hv, hys, rfl⟩

/-- A field that refers to nothing, and says of itself what the language declares, compiles exactly
if the lists of truth values that count can be walked through. By what it compiles to, any registry
accepts a value exactly if the value conforms to the field, and makes its normal form of it; in
every other value it finds a failure. -/
theorem verdict_compile_field (h : f.Direct) (nsid : String) (strict : Bool) :
    ((∃ c, (f.compile nsid strict).outcome = .ok c) ↔ f.Enumerable) ∧
      ∀ c, (f.compile nsid strict).outcome = .ok c →
        ∀ (env : Surroundings) (s : Store) (v : Value),
          ((∃ n, ((Registry.verdict env c.schema v).run s).1 = .ok (.ok n)) ↔ f.Conforms v) ∧
          (∀ n, ((Registry.verdict env c.schema v).run s).1 = .ok (.ok n) ↔
            f.Conforms v ∧ f.Normalizes v n) ∧
          (¬ f.Conforms v →
            ∃ failure, ((Registry.verdict env c.schema v).run s).1 = .ok (.error failure)) := by
  refine ⟨h.exists_compile_iff, fun c hc env s v => ?_⟩
  obtain ⟨accepted, refused⟩ := h.decides hc
  have made (n : Value) : ((Registry.verdict env c.schema v).run s).1 = .ok (.ok n) ↔
      f.Conforms v ∧ f.Normalizes v n := by
    rw [Registry.fst_run_verdict, Registry.verdictOf_eq_accepted_iff, Registry.normalized, accepted]
  refine ⟨⟨?_, fun conforms => ?_⟩, made, fun unfit => ?_⟩
  · rintro ⟨n, hn⟩
    exact ((made n).mp hn).1
  · obtain ⟨n, normal⟩ := h.exists_normalizes conforms
    exact ⟨n, (made n).mpr ⟨conforms, normal⟩⟩
  · obtain ⟨verdict, hverdict⟩ := Registry.settled_iff_exists_verdictOf.mp
      (refused ((s.registry.meaning env).follow (s.registry.stepBound env v)) v [])
    rw [Registry.fst_run_verdict, Registry.normalized, hverdict]
    cases verdict with
    | error failure => exact ⟨failure, rfl⟩
    | ok n =>
      rw [Registry.verdictOf_eq_accepted_iff, accepted] at hverdict
      exact absurd hverdict.1 unfit

/-- An array of at most two truth values takes a tuple with one and makes a list of it. -/
theorem verdict_compile_field_array :
    ∃ c, (Field.compile "com.example.task" false ⟨.str "array", [("maxLength", .int 2)],
        some { type := .str "boolean" }, .null⟩).outcome = .ok c ∧
      ((Registry.verdict {} c.schema (.tuple [.bool true])).run
        ⟨{ id := 0, sources := [], strict := some false }, []⟩).1 =
          .ok (.ok (.list [.bool true])) := by
  have declared : Declared ⟨.str "array", [("maxLength", .int 2)],
      some { type := .str "boolean" }, .null⟩ := by
    intro key s y hs hy
    obtain ⟨rfl, rfl⟩ : key = "maxLength" ∧ y = .int 2 := by
      simp only [Entries.find?] at hy
      split_ifs at hy with hkey
      exact ⟨hkey.symm, (Option.some.inj hy).symm⟩
    obtain rfl : s = Language.nonNegative := by
      rw [Language.options_of_find?
        (show Entries.find? Language.fieldTypes "array" = some Language.arrayField from rfl)] at hs
      simpa [Language.lengths] using hs
    exact Schema.accepts_iff.mpr ⟨_, rfl⟩
  have unset {key : String} {y : Value} (h : Entries.find? ([] : Entries Value) key = some y) :
      False := by
    cases h
  have item : Direct { type := .str "boolean" } :=
    .scalar (show "boolean" ∈ scalarTypes by simp [scalarTypes]) rfl
      fun _ _ _ _ hy => (unset hy).elim
  have direct : Direct ⟨.str "array", [("maxLength", .int 2)],
      some { type := .str "boolean" }, .null⟩ := .array declared item
  obtain ⟨compiles, takes⟩ := verdict_compile_field direct "com.example.task" false
  obtain ⟨c, hc⟩ := compiles.mpr fun _ _ _ hy => (unset hy).elim
  refine ⟨c, hc, ((takes c hc _ _ _).2.1 _).mpr ⟨?_, ?_⟩⟩
  · have least : AtLeast ⟨.str "array", [("maxLength", .int 2)],
        some { type := .str "boolean" }, .null⟩ "minLength" 1 := by
      simp [AtLeast, Entries.find?]
    refine ⟨_, .inr rfl, least, by simp [AtMost, Entries.find?], ?_⟩
    simp [Conforms, ConformsTo, Chooses, Entries.find?]
  · exact ⟨_, _, .inr rfl, .cons (by simp [Normalizes, NormalizesTo]) .nil, rfl⟩

end Direct

end Direct

end Field

end Lexicon
