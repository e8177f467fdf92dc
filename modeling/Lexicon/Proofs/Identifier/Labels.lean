import Lexicon.Identifier.Handle
import Lexicon.Proofs.Identifier.Characters

/-!
# Labels of handles and namespaced identifiers

A pattern between anchors is found in a text that follows it up to a newline at its end. Which texts
the patterns of host names and of namespaced identifiers are found in can be told from the parts
between the dots. Main statement: a text is a handle, or a namespaced identifier, exactly if it is
short enough and its pattern is found in it, and exactly if it is short enough and its parts are
labels and names of the right number and in the right places.
-/

namespace Lexicon

namespace Pattern

variable {l : Language Char} {cs : List Char}

/-- A pattern between anchors is found in a text: the text follows it, up to a newline that may end
the text. -/
def Found (l : Language Char) (cs : List Char) : Prop :=
  ∃ w ∈ l, cs = w ∨ cs = w ++ ['\n']

/-- A pattern without newlines is found in a text exactly if the text without the newline at its end
follows the pattern. -/
theorem found_iff (newline : ∀ w ∈ l, '\n' ∉ w) :
    Found l cs ↔ Text.dropFinalNewline cs ∈ l := by
  constructor
  · rintro ⟨w, hw, rfl | rfl⟩
    · rwa [Text.dropFinalNewline_of_notMem (newline _ hw)]
    · rwa [Text.dropFinalNewline_append_newline]
  · intro h
    exact ⟨_, h, Text.dropFinalNewline_cases cs⟩

theorem newline_notMem_of_host {w : List Char} (h : w ∈ host) : '\n' ∉ w := by
  intro newline
  have all := List.all_eq_true.mp (Label.all_of_isHost (mem_host_iff.mp h))
  exact absurd (all _ newline) (by decide)

theorem newline_notMem_of_namespaced {w : List Char} (h : w ∈ namespaced) : '\n' ∉ w := by
  intro newline
  have all := List.all_eq_true.mp (Label.all_of_isNamespaced (mem_namespaced_iff.mp h))
  exact absurd (all _ newline) (by decide)

end Pattern

namespace Label

variable {w : List Char} {parts : List (List Char)}

/-! ### Labels and names -/

/-- A label: one to 63 letters, digits and hyphens, with no hyphen at either end. -/
structure Formed (w : List Char) : Prop where
  length_pos : 1 ≤ w.length
  length_le : w.length ≤ 63
  chars : ∀ c ∈ w, c.isAlphanum = true ∨ c = '-'
  head : w.head? ≠ some '-'
  last : w.getLast? ≠ some '-'

/-- The first character is a letter. -/
def Lettered (w : List Char) : Prop :=
  ∃ c ∈ w.head?, c.isAlpha = true

/-- A name: one to 63 letters and digits, of which the first is a letter. -/
structure Named (w : List Char) : Prop where
  length_pos : 1 ≤ w.length
  length_le : w.length ≤ 63
  chars : ∀ c ∈ w, c.isAlphanum = true
  head : Lettered w

theorem lettered_iff : Lettered w ↔ w.head?.any Char.isAlpha = true := by
  rw [Option.any_eq_true]
  rfl

theorem isLabel_iff_formed : isLabel w = true ↔ Formed w := by
  simp only [isLabel, Bool.and_eq_true, decide_eq_true_eq, List.all_eq_true, isLabelChar,
    Bool.or_eq_true, beq_iff_eq, Option.any_eq_true]
  constructor
  · rintro ⟨⟨⟨length, chars⟩, c, hc, first⟩, d, hd, last⟩
    refine ⟨?_, length, chars, ?_, ?_⟩
    · exact List.length_pos_of_mem (List.mem_of_head? hc)
    · intro hyphen
      rw [hc, Option.some.injEq] at hyphen
      rw [hyphen] at first
      exact absurd first (by decide)
    · intro hyphen
      rw [hd, Option.some.injEq] at hyphen
      rw [hyphen] at last
      exact absurd last (by decide)
  · intro h
    have nonempty : w ≠ [] := List.ne_nil_of_length_pos h.length_pos
    have first := List.head?_eq_some_head nonempty
    have last := List.getLast?_eq_some_getLast nonempty
    refine ⟨⟨⟨h.length_le, h.chars⟩, w.head nonempty, first, ?_⟩, w.getLast nonempty, last, ?_⟩
    · apply (h.chars _ (List.head_mem nonempty)).resolve_right
      exact fun hyphen => h.head (hyphen ▸ first)
    · apply (h.chars _ (List.getLast_mem nonempty)).resolve_right
      exact fun hyphen => h.last (hyphen ▸ last)

theorem isLetterLabel_iff : isLetterLabel w = true ↔ Formed w ∧ Lettered w := by
  rw [isLetterLabel, Bool.and_eq_true, isLabel_iff_formed, lettered_iff]

theorem isName_iff_named : isName w = true ↔ Named w := by
  simp only [isName, Bool.and_eq_true, decide_eq_true_eq, List.all_eq_true, ← lettered_iff]
  constructor
  · rintro ⟨⟨length, chars⟩, c, hc, letter⟩
    exact ⟨List.length_pos_of_mem (List.mem_of_head? hc), length, chars, c, hc, letter⟩
  · intro h
    exact ⟨⟨h.length_le, h.chars⟩, h.head⟩

/-! ### Parts between dots -/

/-- Parts of a host name: at least two labels, of which the last starts with a letter. -/
structure Host (parts : List (List Char)) : Prop where
  length_ge : 2 ≤ parts.length
  labels : ∀ part ∈ parts, Formed part
  last : ∀ part ∈ parts.getLast?, Lettered part

/-- Parts of a namespaced identifier: at least three, a label that starts with a letter, then
labels, and a name at the end. -/
structure Namespaced (parts : List (List Char)) : Prop where
  length_ge : 3 ≤ parts.length
  first : ∀ part ∈ parts.head?, Formed part ∧ Lettered part
  middle : ∀ part ∈ parts.tail.dropLast, Formed part
  last : ∀ part ∈ parts.getLast?, Named part

theorem isHost_iff_host : isHost w = true ↔ Host (Text.splitOn '.' w) := by
  rw [Pattern.isHost_iff]
  generalize Text.splitOn '.' w = parts
  constructor
  · rintro ⟨labels, last, nonempty, rfl, hlabels, hlast⟩
    rw [isLetterLabel_iff] at hlast
    have length := List.length_pos_iff.mpr nonempty
    refine ⟨by simp; omega, ?_, by simp [hlast.2]⟩
    refine List.forall_mem_append.mpr ⟨fun x hx => isLabel_iff_formed.mp (hlabels x hx), ?_⟩
    exact List.forall_mem_singleton.mpr hlast.1
  · rintro ⟨length, labels, last⟩
    obtain rfl | ⟨front, x, rfl⟩ := List.eq_nil_or_concat' parts
    · simp at length
    · rw [List.forall_mem_append, List.forall_mem_singleton] at labels
      rw [List.getLast?_concat] at last
      refine ⟨front, x, ?_, rfl, ?_, isLetterLabel_iff.mpr ⟨labels.2, last x rfl⟩⟩
      · rintro rfl
        simp at length
      · exact fun y hy => isLabel_iff_formed.mpr (labels.1 y hy)

theorem isNamespaced_iff_namespaced :
    isNamespaced w = true ↔ Namespaced (Text.splitOn '.' w) := by
  rw [Pattern.isNamespaced_iff]
  generalize Text.splitOn '.' w = parts
  constructor
  · rintro ⟨first, labels, last, nonempty, rfl, hfirst, hlabels, hlast⟩
    have length := List.length_pos_iff.mpr nonempty
    refine ⟨by simp; omega, by simpa using isLetterLabel_iff.mp hfirst, ?_, ?_⟩
    · rw [List.tail_cons, List.dropLast_concat]
      exact fun x hx => isLabel_iff_formed.mp (hlabels x hx)
    · rw [← List.cons_append, List.getLast?_concat]
      simpa using isName_iff_named.mp hlast
  · rintro ⟨length, first, middle, last⟩
    obtain ⟨x, rest, rfl⟩ := List.exists_cons_of_length_pos (Nat.lt_of_lt_of_le (by decide) length)
    obtain rfl | ⟨labels, y, rfl⟩ := List.eq_nil_or_concat' rest
    · simp at length
    · rw [List.tail_cons, List.dropLast_concat] at middle
      rw [← List.cons_append, List.getLast?_concat] at last
      refine ⟨x, labels, y, ?_, rfl, isLetterLabel_iff.mpr (first x rfl), ?_, ?_⟩
      · rintro rfl
        simp at length
      · exact fun z hz => isLabel_iff_formed.mpr (middle z hz)
      · exact isName_iff_named.mpr (last y rfl)

/-! ### Identifiers -/

/-- **Handles and namespaced identifiers have exactly the documented labels.** A text is a handle
exactly if it has at most 253 characters and the pattern of host names is found in it, and exactly
if it has at most 253 characters and falls apart at the dots, without a newline at its end, into at
least two labels of which the last starts with a letter. It is a namespaced identifier exactly if it
has at most 317 characters and the pattern of these is found in it, and exactly if it has at most
317 characters and falls apart so into at least three parts: a label that starts with a letter,
labels, and a name. -/
theorem isValid_iff_parts (s : String) :
    let parts := Text.splitOn '.' (Text.dropFinalNewline s.toList)
    ((Handle.isValid s = true ↔ s.length ≤ 253 ∧ Pattern.Found Pattern.host s.toList) ∧
        (Handle.isValid s = true ↔ s.length ≤ 253 ∧ Host parts)) ∧
      (Nsid.isValid s = true ↔ s.length ≤ 317 ∧ Pattern.Found Pattern.namespaced s.toList) ∧
        (Nsid.isValid s = true ↔ s.length ≤ 317 ∧ Namespaced parts) := by
  intro parts
  have handle : Handle.isValid s = true ↔ s.length ≤ 253 ∧
      isHost (Text.dropFinalNewline s.toList) = true := by
    rw [Handle.isValid, Bool.and_eq_true, decide_eq_true_eq, Handle.maxLength]
  have nsid : Nsid.isValid s = true ↔ s.length ≤ 317 ∧
      isNamespaced (Text.dropFinalNewline s.toList) = true := by
    rw [Nsid.isValid, Bool.and_eq_true, decide_eq_true_eq, Nsid.maxLength]
  rw [handle, nsid, Pattern.found_iff fun _ => Pattern.newline_notMem_of_host,
    Pattern.found_iff fun _ => Pattern.newline_notMem_of_namespaced, Pattern.mem_host_iff,
    Pattern.mem_namespaced_iff]
  refine ⟨⟨Iff.rfl, ?_⟩, Iff.rfl, ?_⟩
  · rw [isHost_iff_host]
  · rw [isNamespaced_iff_namespaced]

end Label

end Lexicon
