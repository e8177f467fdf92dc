import Lexicon.Identifier.AtUri
import Lexicon.Proofs.Identifier.Characters

/-!
# URIs and their texts

The text of a URI names its parts one after the other, each after a slash, and no part holds a
slash, so the parts can be told from the text. Main statement: a text is read as a URI exactly if it
spells it, and writing the URI gives the text back.
-/

namespace Lexicon.AtUri

open Pattern

variable {s : String} {t w : List Char} {uri : AtUri}

/-! ### Characters of the parts -/

/-- A text within a part of a URI: it holds no slash and no newline. -/
structure Unbroken (w : List Char) : Prop where
  slash : '/' ∉ w
  newline : '\n' ∉ w

theorem unbroken_of_all {p : Char → Bool} (all : w.all p = true) (slash : p '/' = false)
    (newline : p '\n' = false) : Unbroken w := by
  rw [List.all_eq_true] at all
  constructor
  · intro h
    exact Bool.eq_false_iff.mp slash (all _ h)
  · intro h
    exact Bool.eq_false_iff.mp newline (all _ h)

theorem unbroken_of_isHost (h : Label.isHost w = true) : Unbroken w :=
  unbroken_of_all (Label.all_of_isHost h) (by decide) (by decide)

theorem unbroken_of_isNamespaced (h : Label.isNamespaced w = true) : Unbroken w :=
  unbroken_of_all (Label.all_of_isNamespaced h) (by decide) (by decide)

theorem unbroken_of_isBlessedDid (h : Did.isBlessedDid w = true) : Unbroken w := by
  obtain ⟨method, body, rfl, hmethod, hbody⟩ := isBlessedDid_iff.mp h
  rw [Did.isBody, Bool.and_eq_true] at hbody
  have all : ("did:".toList ++ (method ++ ':' :: body)).all Did.isBodyChar = true := by
    rcases hmethod with rfl | rfl <;> simpa [Did.isBodyChar] using hbody.1
  exact unbroken_of_all all (by decide) (by decide)

theorem unbroken_of_isAuthority (h : isAuthority w = true) : Unbroken w := by
  rw [isAuthority, Bool.or_eq_true] at h
  exact h.elim unbroken_of_isBlessedDid unbroken_of_isHost

theorem unbroken_of_isKeyText (h : RecordKey.isKeyText w = true) : Unbroken w := by
  simp only [RecordKey.isKeyText, Bool.and_eq_true] at h
  exact unbroken_of_all h.2 (by decide) (by decide)

/-- Nothing is no part of a URI. -/
theorem ne_nil_of_test {test : List Char → Bool} (h : test w = true) (empty : test [] = false) :
    w ≠ [] := by
  rintro rfl
  rw [h] at empty
  cases empty

/-! ### Spelling -/

/-- A part that may be absent, after a slash. -/
def tail : Option String → List Char
  | none => []
  | some part => '/' :: part.toList

/-- A text spells a URI: it is `at://`, the authority, and the collection and the record key as far
as the URI has them, each after a slash. -/
structure Spells (t : List Char) (uri : AtUri) : Prop where
  eq : t = "at://".toList ++ (uri.authority.toList ++ (tail uri.collection ++ tail uri.rkey))
  authority : uri.authority.toList ∈ blessedDid + host
  collection : ∀ c ∈ uri.collection, c.toList ∈ namespaced
  rkey : ∀ k ∈ uri.rkey, k.toList ∈ recordKey

theorem mem_authority_iff : w ∈ blessedDid + host ↔ isAuthority w = true := by
  rw [Language.mem_add, mem_blessedDid_iff, mem_host_iff, isAuthority, Bool.or_eq_true]

theorem spells_of_decode? (h : decode? s = some uri) :
    Spells (Text.dropFinalNewline s.toList) uri := by
  unfold decode? at h
  split at h
  · cases h
  · next rest found =>
    have joined := Text.joinWith_splitOn '/' rest
    rw [Text.eq_append_of_after? found]
    split at h
    · next a split =>
      split_ifs at h with ha
      obtain rfl := Option.some.inj h
      rw [split] at joined
      constructor <;> simp [← joined, Text.joinWith, tail, mem_authority_iff, ha]
    · next a c split =>
      split_ifs at h with valid
      obtain rfl := Option.some.inj h
      rw [Bool.and_eq_true] at valid
      rw [split] at joined
      constructor <;>
        simp [← joined, Text.joinWith, tail, mem_authority_iff, mem_namespaced_iff, valid]
    · next a c k split =>
      split_ifs at h with valid
      obtain rfl := Option.some.inj h
      rw [Bool.and_eq_true, Bool.and_eq_true] at valid
      rw [split] at joined
      constructor <;> simp [← joined, Text.joinWith, tail, mem_authority_iff, mem_namespaced_iff,
        mem_recordKey_iff, valid]
    · cases h

theorem decode?_of_spells (h : Spells (Text.dropFinalNewline s.toList) uri) :
    decode? s = some uri := by
  obtain ⟨authority, collection, rkey, nested⟩ := uri
  obtain ⟨eq, ha, hc, hk⟩ := h
  rw [mem_authority_iff] at ha
  have slash := (unbroken_of_isAuthority ha).slash
  have found (rest : List Char) : Text.after? ['a', 't', ':', '/', '/'] ("at://".toList ++ rest) =
      some rest := Text.after?_append _ _
  rw [decode?, eq, found]
  -- the slashes of the text are those between its parts
  cases collection with
  | none =>
    cases rkey with
    | some => cases nested rfl
    | none =>
      have split : Text.splitOn '/' (authority.toList ++ (tail none ++ tail none)) =
          [authority.toList] := by
        rw [tail, List.append_nil, List.append_nil, Text.splitOn_of_notMem slash]
      simp only [split, ha, if_true, String.ofList_toList]
  | some c =>
    have named := mem_namespaced_iff.mp (hc c rfl)
    have slash' := (unbroken_of_isNamespaced named).slash
    cases rkey with
    | none =>
      have split : Text.splitOn '/' (authority.toList ++ (tail (some c) ++ tail none)) =
          [authority.toList, c.toList] := by
        rw [tail, tail, List.append_nil, Text.splitOn_append slash, Text.splitOn_of_notMem slash']
      simp only [split, ha, named, Bool.and_self, if_true, String.ofList_toList]
    | some k =>
      have key := mem_recordKey_iff.mp (hk k rfl)
      have slash'' := (unbroken_of_isKeyText key).slash
      have split : Text.splitOn '/' (authority.toList ++ (tail (some c) ++ tail (some k))) =
          [authority.toList, c.toList, k.toList] := by
        rw [tail, tail, List.cons_append, Text.splitOn_append slash, Text.splitOn_append slash',
          Text.splitOn_of_notMem slash'']
      simp only [split, ha, named, key, Bool.and_self, if_true, String.ofList_toList]

/-! ### Writing -/

/-- Nothing but slashes is dropped from the end of a text whose last part stands after a slash. -/
theorem dropEndWhile_slashes (front slashes : List Char) (nonempty : w ≠ []) (h : '/' ∉ w)
    (hs : slashes.all (· == '/') = true) :
    Text.dropEndWhile (· == '/') (front ++ (w ++ slashes)) = front ++ w := by
  have dropped : Text.dropEndWhile (· == '/') slashes = [] := by
    induction slashes with
    | nil => rfl
    | cons c rest ih =>
      rw [List.all_cons, Bool.and_eq_true] at hs
      rw [Text.dropEndWhile, ih hs.2]
      simp [hs.1]
  obtain rfl | ⟨before, c, rfl⟩ := List.eq_nil_or_concat' w
  · exact absurd rfl nonempty
  · have kept : (c == '/') = false := by
      rw [beq_eq_false_iff_ne]
      rintro rfl
      exact h (by simp)
    have whole : front ++ (before ++ [c] ++ slashes) = (front ++ before) ++ c :: slashes := by simp
    rw [whole, Text.dropEndWhile_append (p := (· == '/')) _ kept, dropped]
    simp

theorem text_of_spells (h : Spells t uri) : uri.text.toList = t := by
  obtain ⟨authority, collection, rkey, nested⟩ := uri
  obtain ⟨rfl, ha, hc, hk⟩ := h
  rw [mem_authority_iff] at ha
  rw [text, String.toList_ofList]
  simp only [String.toList_append]
  cases collection with
  | none =>
    cases rkey with
    | some => cases nested rfl
    | none =>
      have dropped := dropEndWhile_slashes "at://".toList ['/', '/'] (ne_nil_of_test ha (by decide))
        (unbroken_of_isAuthority ha).slash rfl
      simpa [tail] using dropped
  | some c =>
    have named := mem_namespaced_iff.mp (hc c rfl)
    cases rkey with
    | none =>
      have dropped := dropEndWhile_slashes ("at://".toList ++ authority.toList ++ ['/']) ['/']
        (ne_nil_of_test named (by decide)) (unbroken_of_isNamespaced named).slash rfl
      simpa [tail] using dropped
    | some k =>
      have key := mem_recordKey_iff.mp (hk k rfl)
      have dropped := dropEndWhile_slashes
        ("at://".toList ++ authority.toList ++ ['/'] ++ c.toList ++ ['/']) []
        (ne_nil_of_test key (by decide)) (unbroken_of_isKeyText key).slash rfl
      simpa [tail] using dropped

theorem newline_notMem_of_spells (h : Spells t uri) : '\n' ∉ t := by
  obtain ⟨authority, collection, rkey, nested⟩ := uri
  obtain ⟨rfl, ha, hc, hk⟩ := h
  have newline := (unbroken_of_isAuthority (mem_authority_iff.mp ha)).newline
  have newline' : '\n' ∉ tail collection := by
    cases collection with
    | none => exact List.not_mem_nil
    | some c =>
      simpa [tail] using (unbroken_of_isNamespaced (mem_namespaced_iff.mp (hc c rfl))).newline
  have newline'' : '\n' ∉ tail rkey := by
    cases rkey with
    | none => exact List.not_mem_nil
    | some k => simpa [tail] using (unbroken_of_isKeyText (mem_recordKey_iff.mp (hk k rfl))).newline
  simp [newline, newline', newline'']

/-- **The codec of URIs is exact.** A text is read as a URI exactly if it spells it, one newline at
its end apart; no text spells two URIs. The text of a URI that is read is what was read without that
newline, and this is read as the same URI. -/
theorem decode_iff_spells (s : String) :
    (∀ uri, decode? s = some uri ↔ Spells (Text.dropFinalNewline s.toList) uri) ∧
      (∀ t uri uri', Spells t uri → Spells t uri' → uri = uri') ∧
      ∀ uri, decode? s = some uri →
        uri.text = String.ofList (Text.dropFinalNewline s.toList) ∧
          decode? (String.ofList (Text.dropFinalNewline s.toList)) = some uri := by
  have again {t : List Char} {uri : AtUri} (h : Spells t uri) :
      decode? (String.ofList t) = some uri := by
    apply decode?_of_spells
    rwa [String.toList_ofList, Text.dropFinalNewline_of_notMem (newline_notMem_of_spells h)]
  refine ⟨fun uri => ⟨spells_of_decode?, decode?_of_spells⟩, ?_, ?_⟩
  · intro t uri uri' h h'
    exact Option.some.inj ((again h).symm.trans (again h'))
  · intro uri h
    have spells := spells_of_decode? h
    exact ⟨String.toList_inj.mp (by rw [text_of_spells spells, String.toList_ofList]), again spells⟩

theorem decode_iff_spells_post :
    let uri : AtUri := ⟨"alice.example.com", some "app.bsky.feed.post", some "3k", by simp⟩
    Spells "at://alice.example.com/app.bsky.feed.post/3k".toList uri ∧
      uri.text = "at://alice.example.com/app.bsky.feed.post/3k" := by
  intro uri
  obtain ⟨exact, -, written⟩ := decode_iff_spells "at://alice.example.com/app.bsky.feed.post/3k\n"
  have read : decode? "at://alice.example.com/app.bsky.feed.post/3k\n" = some uri :=
    rfl
  exact ⟨(exact uri).mp read, (written uri read).1⟩

/-- Of two newlines at the end, only one may be left out. -/
theorem decode_ne_of_two_newlines :
    decode? (String.ofList (Text.dropFinalNewline "at://a.bc\n\n".toList)) ≠
      decode? "at://a.bc\n\n" := by
  apply ne_of_apply_ne Option.isSome
  decide +kernel

end Lexicon.AtUri
