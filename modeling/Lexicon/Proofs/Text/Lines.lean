import Lexicon.Text.Blank
import Mathlib.Tactic.SplitIfs

/-!
# Lines of a text

A line break ends a line, and a carriage return and a line feed together are one. Main statements: a
text without line breaks is its only line, and a text with line breaks, but none at its end, has two
lines or more.
-/

namespace Lexicon.Text

variable {c : Char} {cs rest line : List Char} {more : List (List Char)}

theorem isBlank_of_isLineBreak (h : isLineBreak c = true) : isBlank c = true := by
  simp only [isLineBreak, isBlank, Bool.or_eq_true, Bool.and_eq_true, decide_eq_true_eq,
    beq_iff_eq] at h ⊢
  omega

/-- What is kept of a text has no character at its end that would be dropped. -/
theorem getLast?_dropEndWhile {p : Char → Bool} :
    ∀ c ∈ (dropEndWhile p cs).getLast?, p c = false := by
  induction cs with
  | nil => simp [dropEndWhile]
  | cons c cs ih =>
    rw [dropEndWhile]
    split
    · split_ifs with drop
      · simp
      · simpa using drop
    · next kept nonempty =>
      rw [List.getLast?_cons_of_ne_nil nonempty]
      exact ih

theorem mem_of_mem_dropEndWhile {p : Char → Bool} (h : c ∈ dropEndWhile p cs) : c ∈ cs := by
  induction cs with
  | nil => exact h
  | cons d cs ih =>
    rw [dropEndWhile] at h
    split at h
    · split_ifs at h
      · cases h
      · exact List.mem_cons.mpr (.inl (List.mem_singleton.mp h))
    · exact List.mem_cons.mpr ((List.mem_cons.mp h).imp_right ih)

theorem mem_of_mem_trim (h : c ∈ trim cs) : c ∈ cs :=
  List.dropWhile_subset _ (mem_of_mem_dropEndWhile h)

/-- A text without white space around it does not end in a line break. -/
theorem getLast?_trim : ∀ c ∈ (trim cs).getLast?, isLineBreak c = false := by
  intro c hc
  rw [Bool.eq_false_iff]
  intro broken
  have kept := getLast?_dropEndWhile c hc
  rw [isBlank_of_isLineBreak broken] at kept
  cases kept

/-! ### The first character of a text -/

theorem dropLineBreak_cons (h : isLineBreak c = false) :
    dropLineBreak (c :: rest) = c :: dropLineBreak rest := by
  cases rest with
  | nil => simp [dropLineBreak, h]
  | cons d rest =>
    rw [dropLineBreak]
    · rintro rfl
      cases h
    · intro empty
      cases empty

/-- A character that is no line break is the first of the first line. -/
theorem lines_cons (h : isLineBreak c = false) :
    lines (c :: rest) =
      match lines rest with
      | [] => [[c]]
      | line :: more => (c :: line) :: more := by
  rw [lines, linesWithBreaks, h, Bool.false_and, if_neg Bool.false_ne_true, lines]
  cases linesWithBreaks rest with
  | nil => simp [dropLineBreak, h]
  | cons line more => simp [dropLineBreak_cons h]

theorem headD_lines_cons (h : isLineBreak c = false) :
    (lines (c :: rest)).headD [] = c :: (lines rest).headD [] := by
  rw [lines_cons h]
  cases lines rest <;> rfl

theorem tail_lines_cons (h : isLineBreak c = false) :
    (lines (c :: rest)).tail = (lines rest).tail := by
  rw [lines_cons h]
  cases lines rest <;> rfl

/-- A line break ends a line without characters, together with the line feed after it if it is a
carriage return. -/
theorem lines_cons_of_break (h : isLineBreak c = true) (rest : List Char) :
    lines (c :: rest) = [] :: lines rest ∨
      ∃ tail, rest = '\n' :: tail ∧ lines (c :: rest) = [] :: lines tail := by
  by_cases pair : (c == '\r' && rest.head? == some '\n') = true
  · right
    rw [Bool.and_eq_true, beq_iff_eq, beq_iff_eq] at pair
    obtain ⟨rfl, feed⟩ := pair
    obtain ⟨tail, rfl⟩ := List.head?_eq_some_iff.mp feed
    exact ⟨tail, rfl, rfl⟩
  · left
    have single : dropLineBreak [c] = [] := by
      rw [dropLineBreak]
      simp [h]
    rw [lines, linesWithBreaks, h, Bool.eq_false_iff.mpr pair, if_pos (by decide), List.map_cons,
      single, lines]

/-! ### One line and several -/

theorem lines_eq_nil_iff : lines cs = [] ↔ cs = [] := by
  rw [lines, List.map_eq_nil_iff]
  constructor
  · intro none
    rw [← flatten_linesWithBreaks cs, none, List.flatten_nil]
  · rintro rfl
    rfl

theorem lines_of_unbroken (nonempty : cs ≠ []) (h : ∀ c ∈ cs, isLineBreak c = false) :
    lines cs = [cs] := by
  induction cs with
  | nil => exact absurd rfl nonempty
  | cons c rest ih =>
    rw [List.forall_mem_cons] at h
    rw [lines_cons h.1]
    cases rest with
    | nil => rfl
    | cons d rest => rw [ih (List.cons_ne_nil _ _) h.2]

/-- A text that is a single line, and does not end in a line break, has none. -/
theorem unbroken_of_lines_eq (single : lines cs = [line])
    (last : ∀ c ∈ cs.getLast?, isLineBreak c = false) : ∀ c ∈ cs, isLineBreak c = false := by
  induction cs generalizing line with
  | nil => exact List.forall_mem_nil _
  | cons c rest ih =>
    by_cases empty : rest = []
    · subst empty
      simpa using last
    rw [List.getLast?_cons_of_ne_nil empty] at last
    cases hc : isLineBreak c with
    | false =>
      rw [lines_cons hc] at single
      cases further : lines rest with
      | nil => exact absurd (lines_eq_nil_iff.mp further) empty
      | cons first more =>
        rw [further] at single
        obtain ⟨-, rfl⟩ := List.cons.inj single
        exact List.forall_mem_cons.mpr ⟨hc, ih further last⟩
    | true =>
      exfalso
      rcases lines_cons_of_break hc rest with broken | ⟨tail, rfl, broken⟩
      · rw [broken] at single
        exact empty (lines_eq_nil_iff.mp (List.cons.inj single).2)
      · rw [broken] at single
        rw [lines_eq_nil_iff.mp (List.cons.inj single).2] at last
        cases last '\n' rfl

end Lexicon.Text
