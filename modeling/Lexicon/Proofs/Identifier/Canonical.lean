import Lexicon.Proofs.Identifier.Labels
import Lexicon.Proofs.Identifier.Reference

/-!
# The canonical text of a reference

A reference to a definition can be written in three ways: a bare name after a hash sign, which needs
a base; the identifier of a document alone, which means the main definition; and both with a hash
sign between them. Of these texts the canonical one is the shortest that needs no base. Main
statement: each reference has one canonical text, which is read as the reference whatever the base,
and other texts are not canonical for two reasons only.
-/

namespace Lexicon

namespace Pattern

/-- The pattern of definition names: a letter, and up to 62 letters, digits, underscores and
hyphens. -/
def fragment : Language Char :=
  oneOf Char.isAlpha * optional (times 0 62 (oneOf fun c => c.isAlphanum || c == '_' || c == '-'))

theorem mem_fragment_iff {w : List Char} :
    w ∈ fragment ↔ w.length ≤ 63 ∧
      w.all (fun c => c.isAlphanum || c == '_' || c == '-') = true ∧
        w.head?.any Char.isAlpha = true :=
  mem_letterThen_iff fun _ hc => by rw [isAlphanum_of_isAlpha hc, Bool.true_or, Bool.true_or]

theorem notMem_of_fragment {w : List Char} {c : Char} (h : w ∈ fragment)
    (hc : (c.isAlphanum || c == '_' || c == '-') = false) : c ∉ w := by
  intro mem
  have all := List.all_eq_true.mp (mem_fragment_iff.mp h).2.1 c mem
  rw [hc] at all
  cases all

end Pattern

namespace Reference

open Pattern (Found)

variable {r : Reference} {text : String} {base : Option String}

/-! ### Names of definitions -/

/-- A text can name a definition in a reference exactly if the pattern of such names is found in
it. -/
theorem isFragment_iff_found : isFragment text = true ↔ Found Pattern.fragment text.toList := by
  rw [Pattern.found_iff fun _ hw => Pattern.notMem_of_fragment hw (by decide),
    Pattern.mem_fragment_iff, isFragment]
  simp only [Bool.and_eq_true, decide_eq_true_eq]
  tauto

theorem hash_notMem_of_isFragment (h : isFragment text = true) : '#' ∉ text.toList := by
  obtain ⟨w, hw, whole⟩ := isFragment_iff_found.mp h
  have hash : '#' ∉ w := Pattern.notMem_of_fragment hw (by decide)
  rcases whole with same | newline
  · rwa [same]
  · rw [newline, List.mem_append, not_or]
    exact ⟨hash, by decide⟩

/-! ### Canonical texts -/

/-- A canonical text does not begin with a hash sign. -/
theorem head?_text (h : Nsid.isValid r.nsid = true) : r.text.toList.head? ≠ some '#' := by
  have nonempty := Nsid.toList_ne_nil h
  have front : r.text.toList.head? = r.nsid.toList.head? := by
    unfold Reference.text
    split_ifs
    · rfl
    · rw [String.toList_append, String.toList_append, List.append_assoc,
        List.head?_append_of_ne_nil _ nonempty]
  rw [front]
  intro hash
  exact Nsid.hash_notMem h (List.mem_of_head? hash)

/-- A text that names a document and a definition ends in the name of the main one only if it is
this name. -/
theorem suffix_main_iff {nsid fragment : String} (h : Nsid.isValid nsid = true)
    (named : isFragment fragment = true) :
    "#main".toList <:+ (nsid ++ "#" ++ fragment).toList ↔ fragment = mainKey := by
  have main : "#main".toList = '#' :: mainKey.toList := rfl
  have whole : (nsid ++ "#" ++ fragment).toList = nsid.toList ++ '#' :: fragment.toList := by simp
  rw [main, whole]
  constructor
  · rintro ⟨front, same⟩
    -- the text holds one hash sign, so both ways to cut it at a hash sign are the same
    have count := congrArg (List.count '#') same
    simp only [List.count_append, List.count_cons_self,
      List.count_eq_zero_of_not_mem (Nsid.hash_notMem h),
      List.count_eq_zero_of_not_mem (hash_notMem_of_isFragment named)] at count
    have hash : '#' ∉ front := List.count_eq_zero.mp (by omega)
    have cut := congrArg (Text.cutAt '#') same
    rw [Text.cutAt_append hash, Text.cutAt_append (Nsid.hash_notMem h), Prod.mk.injEq,
      Option.some.injEq] at cut
    exact (String.toList_inj.mp cut.2).symm
  · rintro rfl
    exact List.suffix_append _ _

/-- A reference that was read has the text that was read as its canonical one unless that is a bare
name or spells out the name of the main definition. -/
theorem text_eq_iff_of_read (h : read text base = .ok r) :
    r.text = text ↔ text.toList.head? ≠ some '#' ∧ ¬"#main".toList <:+ text.toList := by
  obtain ⟨spells, valid, named⟩ := read_eq_ok_iff.mp h
  constructor
  · rintro rfl
    refine ⟨head?_text valid, ?_⟩
    unfold Reference.text
    split_ifs with main
    · intro suffix
      exact Nsid.hash_notMem valid (suffix.subset (by decide))
    · rwa [suffix_main_iff valid named]
  · rintro ⟨front, suffix⟩
    cases spells with
    | bare => exact absurd (by simp) front
    | main => rw [Reference.text, if_pos rfl]
    | full => rw [Reference.text, if_neg (mt (suffix_main_iff valid named).mpr suffix)]

/-- **Canonical texts are a normal form of references.** The canonical text of a reference to a
document and a name in it is read as the reference, whatever the base. A text that is read as a
reference is the canonical one of the reference exactly if it does not begin with a hash sign and
does not spell out the name of the main definition. And two texts are read, each with its base, as
the same reference exactly if the references have the same canonical text. -/
theorem text_normal :
    (∀ nsid fragment base, Nsid.isValid nsid = true → Found Pattern.fragment fragment.toList →
        read (Reference.text ⟨nsid, fragment⟩) base = .ok ⟨nsid, fragment⟩) ∧
      (∀ text base r, read text base = .ok r →
        (r.text = text ↔ text.toList.head? ≠ some '#' ∧ ¬"#main".toList <:+ text.toList)) ∧
      ∀ text base r text' base' r', read text base = .ok r → read text' base' = .ok r' →
        (r = r' ↔ r.text = r'.text) := by
  have again {r : Reference} (base : Option String) (valid : Nsid.isValid r.nsid = true)
      (named : isFragment r.fragment = true) : read r.text base = .ok r := by
    rw [read_text valid, if_pos named]
  refine ⟨?_, fun _ _ _ => text_eq_iff_of_read, ?_⟩
  · intro nsid fragment base valid found
    exact again (r := ⟨nsid, fragment⟩) base valid (isFragment_iff_found.mpr found)
  · intro text base r text' base' r' h h'
    constructor
    · rintro rfl
      rfl
    · intro same
      obtain ⟨valid, named⟩ := valid_of_read h
      obtain ⟨valid', named'⟩ := valid_of_read h'
      have first := again none valid named
      rw [same, again none valid' named'] at first
      exact (Except.ok.inj first).symm

/-- A name in a document comes back, the name of the main definition is left out, and two names in
one document have different texts. -/
theorem text_normal_reply :
    (Nsid.isValid "app.bsky.feed.post" = true ∧ Found Pattern.fragment "replyRef".toList ∧
        read (Reference.text ⟨"app.bsky.feed.post", "replyRef"⟩) (some "a.b.c") =
          .ok ⟨"app.bsky.feed.post", "replyRef"⟩) ∧
      (read "a.b.c#main" none = .ok ⟨"a.b.c", "main"⟩ ∧
        Reference.text ⟨"a.b.c", "main"⟩ ≠ "a.b.c#main") ∧
      read "#x" (some "a.b.c") = .ok ⟨"a.b.c", "x"⟩ ∧ read "a.b.c#y" none = .ok ⟨"a.b.c", "y"⟩ ∧
        Reference.text ⟨"a.b.c", "x"⟩ ≠ Reference.text ⟨"a.b.c", "y"⟩ := by
  have valid : Nsid.isValid "app.bsky.feed.post" = true := by decide
  have found : Found Pattern.fragment "replyRef".toList := isFragment_iff_found.mp (by decide)
  have written : read "a.b.c#main" none = .ok ⟨"a.b.c", "main"⟩ := rfl
  have bare : read "#x" (some "a.b.c") = .ok ⟨"a.b.c", "x"⟩ := rfl
  have full : read "a.b.c#y" none = .ok ⟨"a.b.c", "y"⟩ := rfl
  refine ⟨⟨valid, found, text_normal.1 _ _ _ valid found⟩, ⟨written, ?_⟩, bare, full, ?_⟩
  · intro same
    exact ((text_normal.2.1 _ _ _ written).mp same).2 (by decide)
  · intro same
    exact absurd ((text_normal.2.2 _ _ _ _ _ _ bare full).mpr same) (by decide)

end Reference

end Lexicon
