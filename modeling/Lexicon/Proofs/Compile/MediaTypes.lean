import Lexicon.Proofs.Compile.Conforms
import Lexicon.Proofs.Text.MediaRegex

/-!
# The media types of blob fields

A blob field with a list of globs takes what one of the globs matches, and without a list any media
type. Main statements: the pattern of a list reads as a regular expression that matches what the
globs match, and, value by value and list by list, when a list takes nothing that the same field
without a list does not take.
-/

namespace Lexicon

namespace MediaPattern

variable {glob cs : List Char}

/-- A glob without stars matches itself alone. -/
theorem matches_iff_eq_of_notMem (h : '*' ∉ glob) : Matches glob cs ↔ cs = glob := by
  induction glob generalizing cs with
  | nil => exact ⟨fun h => by cases h; rfl, fun h => h ▸ .nil⟩
  | cons c glob ih =>
    rw [List.mem_cons, not_or] at h
    constructor
    · intro matched
      cases matched with
      | star => exact absurd rfl h.1
      | char _ matched => rw [(ih h.2).mp matched]
    · rintro rfl
      exact .char (Ne.symm h.1) ((ih h.2).mpr rfl)

theorem IsMediaType.count_slash (h : IsMediaType cs) : cs.count '/' = 1 := by
  obtain ⟨a, b, rfl, -, -, free⟩ := h
  have none {part : List Char} (sub : part ⊆ a ++ b) : part.count '/' = 0 :=
    List.count_eq_zero.mpr fun slash => (free _ (sub slash)).1 rfl
  rw [List.count_append, List.count_cons_self, none (List.subset_append_left a b),
    none (List.subset_append_right a b)]

/-- A star takes two slashes as well, and a text with these is no media type. -/
theorem exists_matches_of_star (h : '*' ∈ glob) : ∃ cs, Matches glob cs ∧ ¬ IsMediaType cs := by
  let slashes (glob : List Char) := glob.flatMap fun c => if c = '*' then ['/', '/'] else [c]
  have matched (glob : List Char) : Matches glob (slashes glob) := by
    induction glob with
    | nil => exact .nil
    | cons c glob ih =>
      by_cases star : c = '*'
      · subst star
        have proper : ['/', '/'] ≠ [] := by simp
        have line : '\n' ∉ ['/', '/'] := by simp
        exact .star proper line ih
      · have cons : slashes (c :: glob) = c :: slashes glob := by simp [slashes, star]
        exact cons ▸ .char star ih
  refine ⟨slashes glob, matched glob, fun media => ?_⟩
  obtain ⟨before, after, rfl⟩ := List.append_of_mem h
  have count := media.count_slash
  simp [slashes, List.count_append] at count
  omega

/-- Everything that a glob matches is a media type exactly if the glob has no star and is one
itself. -/
theorem forall_matches_isMediaType_iff :
    (∀ cs, Matches glob cs → IsMediaType cs) ↔ '*' ∉ glob ∧ IsMediaType glob := by
  constructor
  · intro h
    have literal : '*' ∉ glob := by
      intro star
      obtain ⟨cs, matched, other⟩ := exists_matches_of_star star
      exact other (h cs matched)
    exact ⟨literal, h glob ((matches_iff_eq_of_notMem literal).mpr rfl)⟩
  · rintro ⟨literal, media⟩ cs matched
    rwa [(matches_iff_eq_of_notMem literal).mp matched]

end MediaPattern

namespace Field

variable {f : Field} {pattern pattern' : MediaPattern} {size : Option Value} {v : Value}
  {accept : List String}

/-! ### Blobs and their patterns -/

/-- The schema of a media type that a pattern takes. -/
abbrev mediaSchema (pattern : MediaPattern) : Schema :=
  .string { pattern := some pattern }

theorem outcome_mediaSchema_iff {t : String} {n : Value}
    {follow : Reference → Value → Path → Check Unit Value} {path : Path} :
    ((mediaSchema pattern).checkWith follow (.str t) path).outcome = .ok n ↔
      pattern.accepts t = true ∧ n = .str t := by
  have unbounded (quantity : Quantity) (k : Value) :
      (Bounds.check {} quantity k path : Check Unit Unit).outcome = .ok () := rfl
  have passed : (TextRules.check { pattern := some pattern } t path : Check Unit Unit).outcome =
      .ok () ↔ pattern.accepts t = true := by
    simp [TextRules.outcome_check, unbounded]
  rw [Schema.checkWith, Check.outcome_bind, Except.bind_eq_ok_iff]
  constructor
  · rintro ⟨⟨⟩, h, same⟩
    exact ⟨passed.mp h, (Except.ok.inj same).symm⟩
  · rintro ⟨h, rfl⟩
    exact ⟨(), passed.mpr h, rfl⟩

theorem accepts_media_iff {t : String} :
    (mediaSchema pattern).Accepts (.str t) ↔ pattern.accepts t = true := by
  rw [Schema.accepts_iff]
  simp only [outcome_mediaSchema_iff, exists_and_left, exists_eq, and_true]

theorem part_mediaSchema {es : Entries Value} {t : String}
    (found : es.find? "mimeType" = some (.str t)) (h : pattern.accepts t = true)
    {follow : Reference → Value → Path → Check Unit Value} {path : Path} :
    Schema.part follow es path "mimeType" (.required (mediaSchema pattern)) =
      .ok (some ("mimeType", .str t)) := by
  rw [Schema.part_of_found found, Schema.checkWith, outcome_mediaSchema_iff.mpr ⟨h, rfl⟩]
  rfl

/-- An object with a media type, between other fields. -/
def mediaFields (before after : List (String × Schema)) (pattern : MediaPattern) : Schema :=
  .fields (before ++ ("mimeType", .required (mediaSchema pattern)) :: after)

theorem outcome_mediaFields_congr (before after : List (String × Schema)) {es : Entries Value}
    {t : String} (found : es.find? "mimeType" = some (.str t)) (h : pattern.accepts t = true)
    (h' : pattern'.accepts t = true) (follow : Reference → Value → Path → Check Unit Value)
    (path : Path) :
    ((mediaFields before after pattern).checkWith follow (.object es) path).outcome =
      ((mediaFields before after pattern').checkWith follow (.object es) path).outcome := by
  have keys (pattern : MediaPattern) :
      Entries.keys (before ++ ("mimeType", .required (mediaSchema pattern)) :: after) =
        Entries.keys before ++ "mimeType" :: Entries.keys after := by
    simp [Entries.keys]
  simp only [mediaFields, Schema.outcome_fields, undeclared_eq, keys, List.mapM_append,
    List.mapM_cons, part_mediaSchema found h, part_mediaSchema found h']

/-- Two patterns that both take the media type of an object take the object alike. -/
theorem accepts_blobSchema_congr {es : Entries Value} {t : String}
    (found : es.find? "mimeType" = some (.str t)) (h : pattern.accepts t = true)
    (h' : pattern'.accepts t = true) :
    (blobSchema pattern size).Accepts (.object es) ↔
      (blobSchema pattern' size).Accepts (.object es) := by
  have current := outcome_mediaFields_congr
    [("$type", .required (.literal (.str "blob"))), ("ref", .required linkSchema)]
    [("size", .required (.integer ⟨some (.int 0), size⟩))] found h h' Schema.unfollowed []
  have older := outcome_mediaFields_congr [("cid", .required .text)] [] found h h'
    Schema.unfollowed []
  simp only [mediaFields, List.cons_append, List.nil_append] at current older
  simp only [Schema.accepts_iff, Schema.outcome_blobSchema_iff, Schema.blobFields,
    Schema.olderBlobFields]
  rw [current, older]

/-- What a blob schema accepts has a media type that the pattern takes. -/
theorem exists_media_of_accepts (h : (blobSchema pattern size).Accepts v) :
    ∃ (es : Entries Value) (t : String), v = .object es ∧
      es.find? "mimeType" = some (.str t) ∧ pattern.accepts t = true := by
  have media {fields : List (String × Schema)} (h : (Schema.fields fields).Accepts v)
      (hmedia : ("mimeType", Schema.required (.string { pattern := some pattern })) ∈ fields) :
      ∃ (es : Entries Value) (t : String), v = .object es ∧
        es.find? "mimeType" = some (.str t) ∧ pattern.accepts t = true := by
    obtain ⟨es, rfl, accepted⟩ := h.fields
    obtain ⟨x, hx, accepted⟩ := accepted.found "mimeType" hmedia rfl
    obtain ⟨t, rfl⟩ := accepted.exists_str
    exact ⟨es, t, rfl, hx, accepts_media_iff.mp accepted⟩
  obtain ⟨n, hn⟩ := Schema.accepts_iff.mp h
  rcases Schema.outcome_blobSchema_iff.mp hn with hn | ⟨-, hn⟩
  · exact media (Schema.accepts_of_outcome hn) (by simp [Schema.blobFields])
  · exact media (Schema.accepts_of_outcome hn) (by simp [Schema.olderBlobFields])

/-- A blob of the older form is accepted where its media type is taken. -/
theorem accepts_olderBlob {t : String} (h : pattern.accepts t = true) (cid : String) :
    (blobSchema pattern size).Accepts (.object [("cid", .str cid), ("mimeType", .str t)]) := by
  have typeless {others : List (String × Schema)} :
      ((Schema.fields (("$type", .required (.literal (.str "blob"))) :: others)).checkWith
        Schema.unfollowed (.object [("cid", .str cid), ("mimeType", .str t)]) []).outcome =
          .error (.invalid ⟨[.key "$type"], .missing⟩) := by
    rw [Schema.outcome_fields, List.mapM_cons]
    rfl
  have older : ((Schema.fields [("cid", .required .text),
      ("mimeType", .required (mediaSchema pattern))]).checkWith
        Schema.unfollowed (.object [("cid", .str cid), ("mimeType", .str t)]) []).outcome =
          .ok (.object [("cid", .str cid), ("mimeType", .str t)]) := by
    rw [Schema.outcome_fields, List.mapM_cons, List.mapM_cons, List.mapM_nil,
      part_mediaSchema rfl h]
    rfl
  exact Schema.accepts_iff.mpr ⟨_, Schema.outcome_blobSchema_iff.mpr (.inr ⟨⟨_, typeless⟩, older⟩)⟩

/-! ### Fields with and without a list -/

/-- A field without one of its options. -/
def without (f : Field) (name : String) : Field :=
  { f with options := f.options.filter fun e => e.1 ≠ name }

theorem find?_without (f : Field) (name key : String) :
    (f.without name).options.find? key = if key = name then none else f.options.find? key := by
  have := Entries.find?_filter (fun key => key ≠ name) f.options key
  simpa [without] using this

/-- A field lists the globs that it takes media types by. -/
def Lists (f : Field) (accept : List String) : Prop :=
  f.options.find? "accept" = some (.list (accept.map .str)) ∨
    f.options.find? "accept" = some (.tuple (accept.map .str))

theorem compile_blob (type : f.type = .str "blob") (nsid : String) (strict : Bool) :
    (f.compile nsid strict).outcome = f.compileBlob := by
  obtain ⟨_, options, items, description⟩ := f
  obtain rfl : _ = Value.str "blob" := type
  simp [compile, compileScalar?]

theorem compileBlob_of_lists (given : f.Lists accept) :
    f.compileBlob = .ok ⟨blobSchema (if accept = [] ∨ "*/*" ∈ accept then .any else .globs accept)
      (f.option? "maxSize"), .blob (accept.map .str) (f.option "maxSize")⟩ := by
  have texts : f.option "accept" = .list (accept.map .str) ∨
      f.option "accept" = .tuple (accept.map .str) := by
    rcases given with given | given <;>
      simp [Field.option, Entries.getValue, given, Value.ofOption]
  have empty : ¬ (f.option "accept").isTrue = true → accept = [] := by
    rcases texts with eq | eq <;> simp [eq, Value.isTrue]
  rw [compileBlob, mediaPattern_of_texts texts, Except.ok_bind]
  dsimp only
  by_cases isTrue : (f.option "accept").isTrue = true
  · rw [if_pos isTrue]
    rcases texts with eq | eq <;> rw [eq] <;> rfl
  · rw [if_neg isTrue, empty isTrue]
    rfl

theorem compileBlob_of_absent (absent : f.options.find? "accept" = none) :
    f.compileBlob = .ok ⟨blobSchema .any (f.option? "maxSize"), .blob [] (f.option "maxSize")⟩ := by
  have null : f.option "accept" = .null := by
    simp [Field.option, Entries.getValue, absent, Value.ofOption]
  rw [compileBlob, null]
  rfl

/-- The media types of a field with a list are those that one of its globs matches, and the text of
their pattern, the escaped globs with a repeated dot for each escaped star, is read as a regular
expression that matches the same. -/
theorem compile_blob_of_globs (type : f.type = .str "blob") (given : f.Lists accept)
    (proper : accept ≠ []) (limited : "*/*" ∉ accept) (nsid : String) (strict : Bool) :
    (f.compile nsid strict).outcome = .ok ⟨blobSchema (.globs accept) (f.option? "maxSize"),
        .blob (accept.map .str) (f.option "maxSize")⟩ ∧
      (MediaPattern.text (.globs accept)).toList = ['^', '(', '?', ':'] ++
        Text.joinWith ['|'] (accept.map fun g =>
          Text.replace ['\\', '*'] ['.', '+'] (MediaPattern.escape g.toList)) ++ [')', '$'] ∧
      ∃ r, Regex.read (MediaPattern.text (.globs accept)).toList = some r ∧ ∀ w : String,
        ((mediaSchema (.globs accept)).Accepts (.str w) ↔
          ∃ g ∈ accept, MediaPattern.Matches g.toList w.toList) ∧
        (r.FullMatch w.toList ↔ ∃ g ∈ accept, MediaPattern.Matches g.toList w.toList) := by
  have limits : ¬ (accept = [] ∨ "*/*" ∈ accept) := not_or.mpr ⟨proper, limited⟩
  refine ⟨?_, ?_, _, MediaPattern.read_text proper, fun w => ⟨?_, ?_⟩⟩
  · rw [compile_blob type, compileBlob_of_lists given, if_neg limits]
  · simp [MediaPattern.text, MediaPattern.globText_eq_replace]
  · rw [accepts_media_iff, MediaPattern.accepts_globs_iff proper]
  · exact MediaPattern.fullMatch_globsRegex_iff proper

/-- A star, and a plus that stands for itself. -/
theorem compile_blob_of_globs_svg :
    ∃ r, Regex.read "^(?:image/.+\\+xml|video/mp4)$".toList = some r ∧
      r.FullMatch "image/svg+xml".toList ∧ ¬ r.FullMatch "image/+xml".toList := by
  have given : Lists ⟨.str "blob", [("accept", .list [.str "image/*+xml", .str "video/mp4"])],
      none, .null⟩ ["image/*+xml", "video/mp4"] := .inl rfl
  obtain ⟨-, text, r, hread, decides⟩ :=
    compile_blob_of_globs rfl given (by decide) (by decide) "com.example.post" false
  have eq : (MediaPattern.text (.globs ["image/*+xml", "video/mp4"])).toList =
      "^(?:image/.+\\+xml|video/mp4)$".toList := by decide
  refine ⟨r, eq ▸ hread, (decides "image/svg+xml").2.mpr ⟨_, List.mem_cons_self, ?_⟩,
    fun matched => ?_⟩
  · exact MediaPattern.matches_of_globMatches (by simp [MediaPattern.globMatches])
  · obtain ⟨g, hg, matched⟩ := (decides "image/+xml").2.mp matched
    have refused := MediaPattern.globMatches_of_matches matched
    simp only [List.mem_cons, List.not_mem_nil, or_false] at hg
    rcases hg with rfl | rfl <;> simp [MediaPattern.globMatches] at refused

/-! ### Lists that narrow -/

/-- A value says under `mimeType` that it is of a media type. -/
def HasMediaType (v : Value) : Prop :=
  ∃ (es : Entries Value) (t : String), v = .object es ∧
    es.find? "mimeType" = some (.str t) ∧ MediaPattern.IsMediaType t.toList

/-- What a pattern takes is taken without one exactly if it is of a media type. -/
theorem accepts_any_iff (h : (blobSchema pattern size).Accepts v) :
    (blobSchema .any size).Accepts v ↔ HasMediaType v := by
  constructor
  · intro accepted
    obtain ⟨es, t, rfl, found, media⟩ := exists_media_of_accepts accepted
    exact ⟨es, t, rfl, found, MediaPattern.isMediaType_eq_true_iff.mp media⟩
  · rintro ⟨es, t, rfl, found, media⟩
    obtain ⟨_, t', same, found', taken⟩ := exists_media_of_accepts h
    obtain rfl := Value.object.inj same
    obtain rfl := Value.str.inj (Option.some.inj (found.symm.trans found'))
    have any : MediaPattern.any.accepts t = true := MediaPattern.isMediaType_eq_true_iff.mpr media
    exact (accepts_blobSchema_congr found taken any).mp h

/-- What globs take is always taken without them exactly if they spell out media types. -/
theorem narrows_globs_iff (proper : accept ≠ []) :
    (∀ v, (blobSchema (.globs accept) size).Accepts v → (blobSchema .any size).Accepts v) ↔
      ∀ g ∈ accept, '*' ∉ g.toList ∧ MediaPattern.IsMediaType g.toList := by
  simp only [← MediaPattern.forall_matches_isMediaType_iff]
  constructor
  · intro narrows g hg cs matched
    have taken : (MediaPattern.globs accept).accepts (String.ofList cs) = true :=
      (MediaPattern.accepts_globs_iff proper).mpr ⟨g, hg, by simpa using matched⟩
    obtain ⟨_, t, same, found, media⟩ :=
      exists_media_of_accepts (narrows _ (accepts_olderBlob taken "cid"))
    obtain rfl := Value.object.inj same
    obtain rfl := Value.str.inj (Option.some.inj found)
    simpa using MediaPattern.isMediaType_eq_true_iff.mp media
  · intro media v accepted
    obtain ⟨es, t, rfl, found, taken⟩ := exists_media_of_accepts accepted
    obtain ⟨g, hg, matched⟩ := (MediaPattern.accepts_globs_iff proper).mp taken
    exact (accepts_any_iff accepted).mpr ⟨es, t, rfl, found, media g hg _ matched⟩

/-- Without its list a field takes what it takes with it exactly if that is of a media type, and it
always does where the list limits nothing or spells out media types. -/
theorem accepts_without_accept_iff (type : f.type = .str "blob") (given : f.Lists accept)
    (nsid : String) (strict : Bool) :
    ∃ c c', (f.compile nsid strict).outcome = .ok c ∧
      ((f.without "accept").compile nsid strict).outcome = .ok c' ∧
      (∀ v, c.schema.Accepts v → (c'.schema.Accepts v ↔ HasMediaType v)) ∧
      ((∀ v, c.schema.Accepts v → c'.schema.Accepts v) ↔ accept = [] ∨ "*/*" ∈ accept ∨
        ∀ g ∈ accept, '*' ∉ g.toList ∧ MediaPattern.IsMediaType g.toList) := by
  have absent : (f.without "accept").options.find? "accept" = none := by
    rw [find?_without, if_pos rfl]
  have size : (f.without "accept").option "maxSize" = f.option "maxSize" := by
    rw [Field.option, Entries.getValue, find?_without, if_neg (by decide)]
    rfl
  have type' : (f.without "accept").type = .str "blob" := type
  refine ⟨_, _, (compile_blob type ..).trans (compileBlob_of_lists given),
    (compile_blob type' ..).trans (compileBlob_of_absent absent), ?_⟩
  simp only [option?, size]
  refine ⟨fun v => accepts_any_iff, ?_⟩
  by_cases limits : accept = [] ∨ "*/*" ∈ accept
  · rw [if_pos limits, ← or_assoc]
    exact ⟨fun _ => .inl limits, fun _ _ accepted => accepted⟩
  · obtain ⟨proper, limited⟩ := not_or.mp limits
    rw [if_neg limits, narrows_globs_iff proper]
    simp only [proper, limited, false_or]

/-- A list of one media type narrows. -/
theorem accepts_without_accept_of_image : ∃ c c',
    (Field.compile "com.example.post" false
      ⟨.str "blob", [("accept", .list [.str "image/png"])], none, .null⟩).outcome = .ok c ∧
    (Field.compile "com.example.post" false ⟨.str "blob", [], none, .null⟩).outcome = .ok c' ∧
    ∀ v, c.schema.Accepts v → c'.schema.Accepts v := by
  have given : Lists ⟨.str "blob", [("accept", .list [.str "image/png"])], none, .null⟩
      ["image/png"] := .inl rfl
  obtain ⟨c, c', hc, hc', -, narrows⟩ :=
    accepts_without_accept_iff rfl given "com.example.post" false
  have media : MediaPattern.IsMediaType "image/png".toList :=
    MediaPattern.isMediaType_eq_true_iff.mp (by decide)
  have literal : ∀ g ∈ ["image/png"], '*' ∉ g.toList ∧ MediaPattern.IsMediaType g.toList := by
    simpa using media
  exact ⟨c, c', hc, hc', narrows.mpr (.inr (.inr literal))⟩

/-- A star takes slashes as well, so that a list may take what is no media type. -/
theorem accepts_image_star : ∃ c c',
    (Field.compile "com.example.post" false
      ⟨.str "blob", [("accept", .list [.str "image/*"])], none, .null⟩).outcome = .ok c ∧
    (Field.compile "com.example.post" false ⟨.str "blob", [], none, .null⟩).outcome = .ok c' ∧
    c.schema.Accepts (.object [("cid", .str "bafy"), ("mimeType", .str "image/a/b")]) ∧
    ¬ c'.schema.Accepts (.object [("cid", .str "bafy"), ("mimeType", .str "image/a/b")]) := by
  have given : Lists ⟨.str "blob", [("accept", .list [.str "image/*"])], none, .null⟩
      ["image/*"] := .inl rfl
  have taken : (MediaPattern.globs ["image/*"]).accepts "image/a/b" = true := by
    simp [MediaPattern.accepts, MediaPattern.globMatches]
  refine ⟨_, _, (compile_blob rfl ..).trans (compileBlob_of_lists given),
    (compile_blob rfl ..).trans (compileBlob_of_absent rfl), ?_, fun accepted => ?_⟩
  · exact accepts_olderBlob taken "bafy"
  · obtain ⟨_, t, same, found, media⟩ := exists_media_of_accepts accepted
    obtain rfl := Value.object.inj same
    obtain rfl := Value.str.inj (Option.some.inj found)
    exact absurd media (by decide)

end Field

end Lexicon
