import Lexicon.Identifier.Nsid
import Lexicon.Proofs.Identifier.Pattern

/-!
# Characters of identifiers

What can be told of a single character of a text from the pattern that the whole of it follows. Main
statements: a host name and a namespaced identifier consist of the characters of labels and of dots,
and the newline that may follow a text is the only difference that dropping it makes.
-/

namespace Lexicon

namespace Text

variable {p : Char → Bool} {cs : List Char}

/-- A text whose pieces and separator are of a class is of that class. -/
theorem all_of_splitOn (sep : Char) (hsep : p sep = true)
    (h : ∀ piece ∈ splitOn sep cs, piece.all p = true) : cs.all p = true := by
  rw [← joinWith_splitOn sep cs]
  generalize splitOn sep cs = pieces at h
  cases pieces with
  | nil => rfl
  | cons first rest =>
    rw [List.forall_mem_cons] at h
    rw [joinWith_cons, List.all_append, h.1, List.all_flatten, List.all_map, Bool.true_and,
      List.all_eq_true]
    intro piece hpiece
    simp [hsep, h.2 piece hpiece]

/-- A class holds what a smaller one holds. -/
theorem all_mono {q : Char → Bool} (h : cs.all p = true) (sub : ∀ c, p c = true → q c = true) :
    cs.all q = true := by
  rw [List.all_eq_true] at h ⊢
  exact fun c hc => sub c (h c hc)

/-- Nothing but a newline at the end is dropped. -/
theorem dropFinalNewline_cases (cs : List Char) :
    cs = dropFinalNewline cs ∨ cs = dropFinalNewline cs ++ ['\n'] := by
  fun_induction dropFinalNewline cs with
  | case1 => exact .inl rfl
  | case2 => exact .inr rfl
  | case3 c rest _ ih =>
    rcases ih with ih | ih
    · exact .inl (congrArg (c :: ·) ih)
    · exact .inr (congrArg (c :: ·) ih)

/-- The newline that may follow a text is dropped. -/
theorem dropFinalNewline_append_newline (cs : List Char) :
    dropFinalNewline (cs ++ ['\n']) = cs := by
  induction cs with
  | nil => rfl
  | cons c rest ih =>
    rw [List.cons_append, dropFinalNewline, ih]
    intro _ empty
    simp at empty

end Text

namespace Label

variable {w : List Char}

/-- Whether a character may stand in a host name or in a namespaced identifier. -/
def isHostChar (c : Char) : Bool :=
  isLabelChar c || c == '.'

theorem isHostChar_of_isLabelChar {c : Char} (h : isLabelChar c = true) : isHostChar c = true := by
  rw [isHostChar, h, Bool.true_or]

private theorem all_of_isLabel (h : isLabel w = true) : w.all isHostChar = true := by
  simp only [isLabel, Bool.and_eq_true] at h
  exact Text.all_mono h.1.1.2 fun _ => isHostChar_of_isLabelChar

private theorem all_of_isLetterLabel (h : isLetterLabel w = true) : w.all isHostChar = true := by
  rw [isLetterLabel, Bool.and_eq_true] at h
  exact all_of_isLabel h.1

private theorem all_of_isName (h : isName w = true) : w.all isHostChar = true := by
  simp only [isName, Bool.and_eq_true] at h
  exact Text.all_mono h.1.2 fun _ hc =>
    isHostChar_of_isLabelChar (Pattern.isLabelChar_of_isAlphanum hc)

theorem all_of_isHost (h : isHost w = true) : w.all isHostChar = true := by
  obtain ⟨labels, last, -, split, hlabels, hlast⟩ := Pattern.isHost_iff.mp h
  apply Text.all_of_splitOn '.' (by decide)
  rw [split]
  exact List.forall_mem_append.mpr ⟨fun x hx => all_of_isLabel (hlabels x hx),
    List.forall_mem_singleton.mpr (all_of_isLetterLabel hlast)⟩

theorem all_of_isNamespaced (h : isNamespaced w = true) : w.all isHostChar = true := by
  obtain ⟨first, labels, last, -, split, hfirst, hlabels, hlast⟩ := Pattern.isNamespaced_iff.mp h
  apply Text.all_of_splitOn '.' (by decide)
  rw [split]
  refine List.forall_mem_cons.mpr ⟨all_of_isLetterLabel hfirst, ?_⟩
  exact List.forall_mem_append.mpr ⟨fun x hx => all_of_isLabel (hlabels x hx),
    List.forall_mem_singleton.mpr (all_of_isName hlast)⟩

end Label

/-- Nothing but the characters of labels, dots and newlines is in a namespaced identifier. -/
theorem Nsid.notMem_of_isHostChar {s : String} {c : Char} (h : Nsid.isValid s = true)
    (foreign : Label.isHostChar c = false) (other : c ≠ '\n') : c ∉ s.toList := by
  rw [Nsid.isValid, Bool.and_eq_true] at h
  have all := List.all_eq_true.mp (Label.all_of_isNamespaced h.2)
  have dropped : c ∉ Text.dropFinalNewline s.toList := by
    intro hc
    rw [all c hc] at foreign
    cases foreign
  rcases Text.dropFinalNewline_cases s.toList with same | newline
  · exact same ▸ dropped
  · rw [newline, List.mem_append, List.mem_singleton, not_or]
    exact ⟨dropped, other⟩

end Lexicon
