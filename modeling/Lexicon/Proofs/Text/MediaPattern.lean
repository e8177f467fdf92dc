import Lexicon.MediaPattern

/-!
# Media types that a pattern takes

What the patterns of media types mean, apart from how they are searched. Main statement: a pattern
takes a text exactly if one of its globs matches the text or, where there are none to look at, the
text is a media type.
-/

namespace Lexicon.MediaPattern

/-- Two parts without slashes and blanks, joined by a slash. -/
def IsMediaType (cs : List Char) : Prop :=
  ∃ a b, cs = a ++ '/' :: b ∧ a ≠ [] ∧ b ≠ [] ∧
    ∀ c ∈ a ++ b, c ≠ '/' ∧ Text.isBlank c = false

/-- A star in a glob matches one or more characters of one line, and every other character
itself. -/
inductive Matches : List Char → List Char → Prop
  | nil : Matches [] []
  | star {glob cs rest : List Char} (proper : cs ≠ []) (line : '\n' ∉ cs)
      (h : Matches glob rest) : Matches ('*' :: glob) (cs ++ rest)
  | char {c : Char} {glob rest : List Char} (hc : c ≠ '*') (h : Matches glob rest) :
      Matches (c :: glob) (c :: rest)

theorem isMediaType_eq_true_iff {cs : List Char} : isMediaType cs = true ↔ IsMediaType cs := by
  constructor
  · intro h
    unfold isMediaType at h
    split at h
    · next a b hsplit =>
      have joined := Text.joinWith_splitOn '/' cs
      rw [hsplit] at joined
      simp only [Bool.and_eq_true, Bool.not_eq_true', List.isEmpty_eq_false_iff,
        List.any_eq_false] at h
      obtain ⟨⟨⟨ha, hb⟩, blankA⟩, blankB⟩ := h
      have slashA := Text.not_mem_of_mem_splitOn (hsplit ▸ List.mem_cons_self : a ∈ _)
      have slashB := Text.not_mem_of_mem_splitOn
        (hsplit ▸ List.mem_cons_of_mem _ List.mem_cons_self : b ∈ _)
      refine ⟨a, b, by simpa [Text.joinWith] using joined.symm, ha, hb, fun c hc => ?_⟩
      rcases List.mem_append.mp hc with hc | hc
      · exact ⟨fun h => slashA (h ▸ hc), by simpa using blankA c hc⟩
      · exact ⟨fun h => slashB (h ▸ hc), by simpa using blankB c hc⟩
    · cases h
  · rintro ⟨a, b, rfl, ha, hb, hc⟩
    have slashA : '/' ∉ a := fun h => (hc _ (List.mem_append_left _ h)).1 rfl
    have slashB : '/' ∉ b := fun h => (hc _ (List.mem_append_right _ h)).1 rfl
    have blank {c : Char} (h : c ∈ a ++ b) : ¬ Text.isBlank c = true := by simp [(hc c h).2]
    unfold isMediaType
    rw [Text.splitOn_append slashA, Text.splitOn_of_notMem slashB]
    simp only [Bool.and_eq_true, Bool.not_eq_true', List.isEmpty_eq_false_iff, List.any_eq_false]
    exact ⟨⟨⟨ha, hb⟩, fun c h => blank (List.mem_append_left _ h)⟩,
      fun c h => blank (List.mem_append_right _ h)⟩

/-- One more character of the line before what a star matches. -/
theorem Matches.star_cons {glob cs : List Char} {c : Char} (hc : c ≠ '\n')
    (h : Matches ('*' :: glob) cs) : Matches ('*' :: glob) (c :: cs) := by
  cases h with
  | @star _ taken rest proper line h =>
    have line' : '\n' ∉ c :: taken := by
      rw [List.mem_cons, not_or]
      exact ⟨Ne.symm hc, line⟩
    exact .star (by simp) line' h
  | char hstar _ => exact absurd rfl hstar

theorem matches_of_globMatches {glob cs : List Char} (h : globMatches glob cs = true) :
    Matches glob cs := by
  fun_induction globMatches glob cs with
  | case1 => exact .nil
  | case2 => cases h
  | case3 => cases h
  | case4 glob c cs ihShort ihLong =>
    simp only [Bool.and_eq_true, bne_iff_ne, ne_eq, Bool.or_eq_true] at h
    obtain ⟨hc, h | h⟩ := h
    · exact .star (show [c] ≠ [] by simp) (by simpa using Ne.symm hc) (ihShort h)
    · exact (ihLong h).star_cons hc
  | case5 g glob c cs other ih =>
    simp only [Bool.and_eq_true, beq_iff_eq] at h
    obtain ⟨rfl, h⟩ := h
    exact .char (fun hg => other hg) (ih h)
  | case6 => cases h

theorem globMatches_of_matches {glob cs : List Char} (h : Matches glob cs) :
    globMatches glob cs = true := by
  induction h with
  | nil => simp [globMatches]
  | @star glob cs rest proper line _ ih =>
    -- the star takes the characters one by one, and leaves the glob with the last of them
    induction cs with
    | nil => exact absurd rfl proper
    | cons c cs ih' =>
      rw [List.mem_cons, not_or] at line
      simp only [List.cons_append, globMatches, Bool.and_eq_true, bne_iff_ne, ne_eq,
        Bool.or_eq_true]
      refine ⟨Ne.symm line.1, ?_⟩
      cases cs with
      | nil => exact .inl ih
      | cons d cs => exact .inr (ih' (by simp) line.2)
  | @char c glob rest hc _ ih =>
    rw [globMatches]
    · simp [ih]
    · exact fun h => hc h

theorem globMatches_eq_true_iff {glob cs : List Char} :
    globMatches glob cs = true ↔ Matches glob cs :=
  ⟨matches_of_globMatches, globMatches_of_matches⟩

/-- Globs take a text exactly if one of them matches it. -/
theorem accepts_globs_iff {gs : List String} (proper : gs ≠ []) {t : String} :
    (MediaPattern.globs gs).accepts t = true ↔ ∃ g ∈ gs, Matches g.toList t.toList := by
  cases gs with
  | nil => exact absurd rfl proper
  | cons g gs => simp only [accepts, List.any_eq_true, globMatches_eq_true_iff]

/-- The same globs in any order take the same texts. -/
theorem accepts_globs_congr {gs gs' : List String} (same : ∀ g, g ∈ gs ↔ g ∈ gs') (t : String) :
    (globs gs).accepts t = (globs gs').accepts t := by
  have empty : gs = [] ↔ gs' = [] := by
    rw [List.eq_nil_iff_forall_not_mem, List.eq_nil_iff_forall_not_mem]
    exact forall_congr' fun g => not_congr (same g)
  by_cases proper : gs = []
  · rw [proper, empty.mp proper]
  · rw [Bool.eq_iff_iff, accepts_globs_iff proper, accepts_globs_iff (mt empty.mpr proper)]
    exact exists_congr fun g => and_congr_left' (same g)

end Lexicon.MediaPattern
