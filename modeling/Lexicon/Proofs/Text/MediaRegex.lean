import Lexicon.Proofs.Text.MediaPattern
import Lexicon.Proofs.Text.Regex

/-!
# The text of a pattern

The text of a pattern of globs is a regular expression: the escaped globs with a repeated dot for
each escaped star, with bars between them, as one group between two anchors. Main statement: read as
a regular expression, it matches a whole text exactly if one of the globs does.
-/

namespace Lexicon.MediaPattern

open Regex

variable {c : Char} {glob cs before after : List Char}

/-! ### Escaped globs -/

/-- A text with its special characters escaped. -/
def escape (cs : List Char) : List Char :=
  cs.flatMap fun c => if isSpecial c then ['\\', c] else [c]

theorem escape_cons_of_special (h : isSpecial c = true) :
    escape (c :: cs) = '\\' :: c :: escape cs := by
  rw [escape, List.flatMap_cons, if_pos h]
  rfl

theorem escape_cons_of_plain (h : isSpecial c = false) : escape (c :: cs) = c :: escape cs := by
  rw [escape, List.flatMap_cons, if_neg (Bool.eq_false_iff.mp h)]
  rfl

/-- A star is never the first character, since a backslash is put before it. -/
theorem after?_star_escape : Text.after? ['*'] (escape cs) = none := by
  cases cs with
  | nil => rfl
  | cons c cs =>
    cases hc : isSpecial c with
    | true => simp [escape_cons_of_special hc, Text.after?]
    | false =>
      have plain : '*' ≠ c := by
        rintro rfl
        cases hc
      simp [escape_cons_of_plain hc, Text.after?, plain]

theorem globText_cons (c : Char) (glob : List Char) :
    globText (c :: glob) =
      (if c = '*' then ['.', '+'] else if isSpecial c then ['\\', c] else [c]) ++ globText glob :=
  rfl

theorem replace_go_escape {n : Nat} (h : (escape glob).length ≤ n) :
    Text.replace.go ['\\', '*'] ['.', '+'] n (escape glob) = globText glob := by
  induction glob generalizing n with
  | nil => cases n <;> rfl
  | cons c glob ih =>
    cases hc : isSpecial c with
    | false =>
      have star : c ≠ '*' := by
        rintro rfl
        cases hc
      have slash : '\\' ≠ c := by
        rintro rfl
        cases hc
      rw [escape_cons_of_plain hc] at h ⊢
      obtain ⟨n, rfl⟩ := Nat.exists_eq_add_of_le' (Nat.le_of_add_left_le h)
      rw [Text.replace.go, Text.after?, if_neg slash, ih (Nat.le_of_succ_le_succ h), globText_cons,
        if_neg star, hc]
      rfl
    | true =>
      rw [escape_cons_of_special hc] at h ⊢
      obtain ⟨n, rfl⟩ := Nat.exists_eq_add_of_le' (show 2 ≤ n from Nat.le_of_add_left_le h)
      have rest : (escape glob).length ≤ n := by simpa using h
      by_cases star : c = '*'
      · subst star
        have found := Text.after?_append ['\\', '*'] (escape glob)
        rw [List.cons_append, List.cons_append, List.nil_append] at found
        simp only [Text.replace.go, found, ih (Nat.le_succ_of_le rest), globText_cons, if_true]
      · -- the second of two backslashes does not begin an escaped star
        have second : Text.after? ['\\', '*'] (c :: escape glob) = none := by
          rw [Text.after?]
          split_ifs
          · exact after?_star_escape
          · rfl
        have first : Text.after? ['\\', '*'] ('\\' :: c :: escape glob) = none := by
          rw [Text.after?, if_pos rfl, Text.after?, if_neg (Ne.symm star)]
        rw [Text.replace.go, first, Text.replace.go, second, ih rest, globText_cons, if_neg star,
          hc]
        rfl

/-- A glob in a pattern is escaped, and its escaped stars become repeated dots. -/
theorem globText_eq_replace :
    globText glob = Text.replace ['\\', '*'] ['.', '+'] (escape glob) :=
  (replace_go_escape (Nat.le_refl _)).symm

/-! ### Reading globs -/

/-- What a character of a glob stands for. -/
def globPart (c : Char) : Regex :=
  if c = '*' then .repeated .dot else .char c

/-- The parts of the expression of a glob. -/
def globParts (glob : List Char) : List Regex :=
  glob.map globPart

theorem globPart_of_ne (h : c ≠ '*') : globPart c = .char c :=
  if_neg h

theorem isAlphanum_of_isSpecial (h : isSpecial c = true) : c.isAlphanum = false := by
  rw [isSpecial, List.contains_iff_mem] at h
  have other := (List.all_eq_true (p := fun d : Char => !d.isAlphanum)).mp (by decide) c h
  simpa using other

theorem ofChar?_of_plain (h : isSpecial c = false) : Token.ofChar? c = some (.char c) := by
  unfold Token.ofChar?
  split <;> first | rfl | cases h

theorem builds_glob : Builds (globText glob) (·.append (globParts glob)) := by
  induction glob with
  | nil => exact .nil
  | cons c glob ih =>
    have first : Builds (if c = '*' then ['.', '+'] else if isSpecial c then ['\\', c] else [c])
        (·.push (globPart c)) := by
      split_ifs with star special
      · exact star ▸ builds_repeated_dot
      · rw [globPart_of_ne star]
        exact builds_escaped (isAlphanum_of_isSpecial special)
      · rw [globPart_of_ne star]
        exact builds_char (ofChar?_of_plain (Bool.eq_false_iff.mpr special))
    have step : (fun f : Frame => f.append (globParts (c :: glob))) =
        (·.append (globParts glob)) ∘ (·.push (globPart c)) := by
      funext f
      simp [globParts, Frame.append, Frame.push]
    rw [globText_cons, step]
    exact first.append ih

/-- The expression of a list of globs. -/
def globsRegex (gs : List String) : Regex :=
  sequence [.start, alternatives (gs.map fun g => sequence (globParts g.toList)), .finish]

/-- The text of a pattern is read as the expression of its globs. -/
theorem read_text {gs : List String} (proper : gs ≠ []) :
    read (text (globs gs)).toList = some (globsRegex gs) := by
  have pieces : List.Forall₂ (fun cs rs => Builds cs (·.append rs))
      (gs.map fun g => globText g.toList) (gs.map fun g => globParts g.toList) :=
    List.forall₂_map_left_iff.mpr <| List.forall₂_map_right_iff.mpr <|
      List.forall₂_same.mpr fun _ _ => builds_glob
  have whole := (builds_start.append (Builds.joined pieces).group).append builds_finish
  have parts : (gs.map fun g => globParts g.toList) ≠ [] := by simpa using proper
  have eq : (text (globs gs)).toList = ['^'] ++ (['(', '?', ':'] ++
      Text.joinWith ['|'] (gs.map fun g => globText g.toList) ++ [')']) ++ ['$'] := by
    simp [text]
  rw [eq, whole.read_eq, Function.comp_apply, Function.comp_apply, Frame.close_enter parts,
    List.map_map]
  rfl

/-! ### What the expression matches -/

theorem matches_of_spans (h : Spans (sequence (globParts glob)) before cs after) :
    Matches glob cs := by
  induction glob generalizing before cs with
  | nil =>
    obtain rfl := spans_empty_iff.mp h
    exact .nil
  | cons c glob ih =>
    obtain ⟨a, b, rfl, first, rest⟩ := spans_seq_iff.mp h
    by_cases star : c = '*'
    · subst star
      obtain ⟨proper, line⟩ := spans_repeated_dot_iff.mp first
      exact .star proper line (ih rest)
    · rw [globPart_of_ne star] at first
      obtain rfl := spans_char_iff.mp first
      exact .char star (ih rest)

theorem spans_of_matches (h : Matches glob cs) :
    Spans (sequence (globParts glob)) before cs after := by
  induction h generalizing before with
  | nil => exact .empty
  | star proper line _ ih =>
    exact spans_seq_iff.mpr ⟨_, _, rfl, spans_repeated_dot_iff.mpr ⟨proper, line⟩, ih⟩
  | char hc _ ih =>
    refine spans_seq_iff.mpr ⟨[_], _, rfl, ?_, ih⟩
    rw [globPart_of_ne hc]
    exact .char

/-- The expression of globs matches what one of them matches. -/
theorem fullMatch_globsRegex_iff {gs : List String} (proper : gs ≠ []) :
    (globsRegex gs).FullMatch cs ↔ ∃ g ∈ gs, Matches g.toList cs := by
  rw [globsRegex, fullMatch_anchored_iff, FullMatch, spans_alternatives_iff (by simpa using proper)]
  simp only [List.mem_map, exists_exists_and_eq_and]
  exact exists_congr fun g => and_congr_right' ⟨matches_of_spans, spans_of_matches⟩

end Lexicon.MediaPattern
