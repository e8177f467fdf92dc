import Lexicon.Identifier.Handle
import Lexicon.Proofs.Identifier.AtUri

/-!
# Parts of URIs on their own

The pattern of URIs repeats those of owners, collections and record keys, but not the limits that
hold where such a text stands alone. Main statement: a part of a URI that is read is valid on its
own exactly within these limits.
-/

namespace Lexicon

variable {s : String}

theorem Did.isBlessed_iff (newline : '\n' ∉ s.toList) :
    isBlessed s = true ↔ s.length ≤ maxLength ∧ isBlessedDid s.toList = true := by
  rw [isBlessed, Text.dropFinalNewline_of_notMem newline, Bool.and_eq_true, decide_eq_true_eq]

theorem Handle.isValid_iff (newline : '\n' ∉ s.toList) :
    isValid s = true ↔ s.length ≤ maxLength ∧ Label.isHost s.toList = true := by
  rw [isValid, Text.dropFinalNewline_of_notMem newline, Bool.and_eq_true, decide_eq_true_eq]

theorem Nsid.isValid_iff (newline : '\n' ∉ s.toList) :
    isValid s = true ↔ s.length ≤ maxLength ∧ Label.isNamespaced s.toList = true := by
  rw [isValid, Text.dropFinalNewline_of_notMem newline, Bool.and_eq_true, decide_eq_true_eq]

theorem RecordKey.isValid_iff (newline : '\n' ∉ s.toList) :
    isValid s = true ↔ (s ≠ "." ∧ s ≠ "..") ∧ isKeyText s.toList = true := by
  rw [isValid, Text.dropFinalNewline_of_notMem newline, Bool.and_eq_true, Bool.and_eq_true,
    bne_iff_ne, bne_iff_ne]

namespace AtUri

variable {w : List Char} {uri : AtUri}

/-! ### Owners -/

theorem colon_mem_of_isBlessedDid (h : Did.isBlessedDid w = true) : ':' ∈ w := by
  obtain ⟨method, body, rfl, -, -⟩ := Pattern.isBlessedDid_iff.mp h
  simp

theorem colon_notMem_of_isHost (h : Label.isHost w = true) : ':' ∉ w := by
  intro colon
  have hostChar := List.all_eq_true.mp (Label.all_of_isHost h) ':' colon
  exact absurd hostChar (by decide)

/-- The greatest length of an owner: only one that is no host name holds a colon. -/
def authorityLimit (authority : String) : Nat :=
  if ':' ∈ authority.toList then Did.maxLength else Handle.maxLength

/-- An owner is valid on its own if it is not too long for what it is. -/
theorem isBlessed_or_isValid_iff (h : isAuthority s.toList = true) :
    Did.isBlessed s = true ∨ Handle.isValid s = true ↔ s.length ≤ authorityLimit s := by
  have newline := (unbroken_of_isAuthority h).newline
  rw [Did.isBlessed_iff newline, Handle.isValid_iff newline, authorityLimit]
  rw [isAuthority, Bool.or_eq_true] at h
  by_cases colon : ':' ∈ s.toList
  · have noHost : ¬Label.isHost s.toList = true := fun host => colon_notMem_of_isHost host colon
    have blessed := h.resolve_right noHost
    simp [colon, noHost, blessed]
  · have noDid : ¬Did.isBlessedDid s.toList = true := fun did =>
      colon (colon_mem_of_isBlessedDid did)
    have host := h.resolve_left noDid
    simp [colon, noDid, host]

/-! ### All parts -/

/-- **Parts of URIs on their own.** The owner in a URI that is read is valid on its own exactly if
it is not too long, the collection exactly if it is not too long, and the record key exactly if it
is not the name of a directory. -/
theorem valid_parts_iff (h : decode? s = some uri) :
    (Did.isBlessed uri.authority = true ∨ Handle.isValid uri.authority = true ↔
        uri.authority.length ≤ authorityLimit uri.authority) ∧
      (∀ c ∈ uri.collection, Nsid.isValid c = true ↔ c.length ≤ Nsid.maxLength) ∧
      ∀ k ∈ uri.rkey, RecordKey.isValid k = true ↔ k ≠ "." ∧ k ≠ ".." := by
  have spells := spells_of_decode? h
  refine ⟨isBlessed_or_isValid_iff (mem_authority_iff.mp spells.authority), ?_, ?_⟩
  · intro c hc
    have named := Pattern.mem_namespaced_iff.mp (spells.collection c hc)
    simp [Nsid.isValid_iff (unbroken_of_isNamespaced named).newline, named]
  · intro k hk
    have key := Pattern.mem_recordKey_iff.mp (spells.rkey k hk)
    simp [RecordKey.isValid_iff (unbroken_of_isKeyText key).newline, key]

/-- A record key of three dots is no name of a directory. -/
theorem valid_parts_iff_dots :
    ∃ uri, decode? "at://did:web:a.bc/a.b.c/..." = some uri ∧ Did.isBlessed uri.authority = true ∧
      ∃ k ∈ uri.rkey, RecordKey.isValid k = true := by
  let uri : AtUri := ⟨"did:web:a.bc", some "a.b.c", some "...", by simp⟩
  have read : decode? "at://did:web:a.bc/a.b.c/..." = some uri := rfl
  obtain ⟨authority, -, rkey⟩ := valid_parts_iff read
  have noHost : ¬Handle.isValid uri.authority = true := by decide +kernel
  exact ⟨uri, read, (authority.mpr (by decide)).resolve_right noHost,
    "...", rfl, (rkey "..." rfl).mpr (by decide)⟩

/-! ### Beyond the limits -/

/-- Every host name is read as an owner, however long it is. -/
theorem decode?_of_isHost (h : Label.isHost s.toList = true) :
    decode? ("at://" ++ s) = some ⟨s, none, none, by simp⟩ := by
  have newline := (unbroken_of_isHost h).newline
  apply decode?_of_spells
  rw [String.toList_append, Text.dropFinalNewline_of_notMem (by simp [newline])]
  constructor
  · simp [tail]
  · rw [mem_authority_iff, isAuthority, h, Bool.or_true]
  · simp
  · simp

theorem not_isBlessed_of_isHost (h : Label.isHost s.toList = true) : Did.isBlessed s = false := by
  have noDid : Did.isBlessedDid s.toList = false :=
    Bool.eq_false_iff.mpr fun did => colon_notMem_of_isHost h (colon_mem_of_isBlessedDid did)
  rw [Did.isBlessed, Text.dropFinalNewline_of_notMem (unbroken_of_isHost h).newline, noDid,
    Bool.and_false]

/-- The characters of a host name: 127 labels of one letter, each with a dot after it, and a last
one. -/
def longHostChars : List Char :=
  (List.replicate 127 ['a', '.']).flatten ++ ['a']

/-- A host name of 255 characters. -/
def longHost : String :=
  String.ofList longHostChars

theorem isHost_longHost : Label.isHost longHost.toList = true := by
  have host : Label.isHost longHostChars = true := by decide +kernel
  rwa [longHost, String.toList_ofList]

/-- Neither the name of a directory as a record key nor an owner that is too long is refused. -/
theorem not_valid_parts :
    (decode? "at://a.bc/a.b.c/.." = some ⟨"a.bc", some "a.b.c", some "..", by simp⟩ ∧
        RecordKey.isValid ".." = false) ∧
      decode? ("at://" ++ longHost) = some ⟨longHost, none, none, by simp⟩ ∧
        Did.isBlessed longHost = false ∧ Handle.isValid longHost = false := by
  have long : ¬longHost.length ≤ Handle.maxLength := by
    rw [longHost, String.length_ofList]
    decide +kernel
  refine ⟨⟨rfl, by decide⟩, decode?_of_isHost isHost_longHost,
    not_isBlessed_of_isHost isHost_longHost, ?_⟩
  rw [Handle.isValid, decide_eq_false long, Bool.false_and]

end AtUri

end Lexicon
