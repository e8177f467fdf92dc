import Lexicon.Module.Docstring
import Lexicon.Proofs.Text.Lines
import Mathlib.Data.List.Basic
import Mathlib.Data.List.Induction

/-!
# Docstrings are literals

A literal between threefold quotes ends at the first three quotes in a row that no backslash
escapes. An escaped description holds no such three, so the literal of it ends with its last three
characters, with one exception: of three quotes at the end of a description on a single line, the
last one is freed from its backslash by the backslash that was to protect it. Main statement: the
rendered description is a literal exactly if it is not this exception.
-/

namespace Lexicon.Docstring

/-! ### Reading a literal -/

/-- What follows a literal of which the text behind its opening quotes is given, after the given
number of quotes in a row. A backslash takes the character after it along, whatever it is; the null
character occurs in no source. -/
def rest? : Nat → List Char → Option (List Char)
  | _, [] => none
  | _, ['\\'] => none
  | seen, '"' :: cs => if seen = 2 then some cs else rest? (seen + 1) cs
  | _, '\\' :: c :: cs => if c = '\x00' then none else rest? 0 cs
  | _, c :: cs => if c = '\x00' then none else rest? 0 cs

/-- A text is a literal between threefold quotes: it begins with three, and ends where the literal
does. -/
def IsLiteral (cs : List Char) : Prop :=
  ∃ body, cs = quotes ++ body ∧ rest? 0 body = some []

/-- A text that can stand in a literal, from one number of quotes in a row to another. Nothing but
backslashes and quotes is escaped. -/
inductive Reads : Nat → List Char → Nat → Prop
  | nil {k : Nat} : Reads k [] k
  | quote {k m : Nat} {cs : List Char} (few : k < 2) (h : Reads (k + 1) cs m) :
      Reads k ('"' :: cs) m
  | escape {k m : Nat} {c : Char} {cs : List Char} (special : c = '\\' ∨ c = '"')
      (h : Reads 0 cs m) : Reads k ('\\' :: c :: cs) m
  | char {k m : Nat} {c : Char} {cs : List Char} (quote : c ≠ '"') (backslash : c ≠ '\\')
      (null : c ≠ '\x00') (h : Reads 0 cs m) : Reads k (c :: cs) m

variable {k m l : Nat} {cs a b u v w text indent : List Char}

theorem Reads.append (h : Reads k a m) (h' : Reads m b l) : Reads k (a ++ b) l := by
  induction h with
  | nil => exact h'
  | quote few _ ih => exact .quote few (ih h')
  | escape special _ ih => exact .escape special (ih h')
  | char quote backslash null _ ih => exact .char quote backslash null (ih h')

/-- Text that can stand in a literal is passed over. -/
theorem rest?_append (h : Reads k a m) : rest? k (a ++ b) = rest? m b := by
  induction h with
  | nil => rfl
  | quote few _ ih =>
    rw [List.cons_append, rest?, if_neg (by omega), ih]
  | escape special _ ih =>
    rw [List.cons_append, List.cons_append, rest?, if_neg, ih]
    rcases special with rfl | rfl <;> decide
  | @char k m cs c quote backslash null _ ih =>
    rw [List.cons_append, rest?, if_neg null, ih]
    · exact fun escaped _ => backslash escaped
    · exact quote
    · exact fun _ _ escaped _ => backslash escaped

/-- The lines of a text that can stand in a literal can stand in one each by itself. -/
theorem Reads.lines (h : Reads k cs m) :
    (∃ m', Reads k ((Text.lines cs).headD []) m') ∧
      ∀ line ∈ (Text.lines cs).tail, ∃ m', Reads 0 line m' := by
  induction h with
  | nil => exact ⟨⟨_, .nil⟩, List.forall_mem_nil _⟩
  | quote few _ ih =>
    obtain ⟨⟨m', first⟩, others⟩ := ih
    rw [Text.headD_lines_cons (by decide), Text.tail_lines_cons (by decide)]
    exact ⟨⟨m', .quote few first⟩, others⟩
  | @escape _ _ c _ special _ ih =>
    obtain ⟨⟨m', first⟩, others⟩ := ih
    have unbroken : Text.isLineBreak c = false := by
      rcases special with rfl | rfl <;> decide
    rw [Text.headD_lines_cons (by decide), Text.headD_lines_cons unbroken,
      Text.tail_lines_cons (by decide), Text.tail_lines_cons unbroken]
    exact ⟨⟨m', .escape special first⟩, others⟩
  | @char _ _ c cs quote backslash null _ ih =>
    obtain ⟨⟨m', first⟩, others⟩ := ih
    cases broken : Text.isLineBreak c with
    | false =>
      rw [Text.headD_lines_cons broken, Text.tail_lines_cons broken]
      exact ⟨⟨m', .char quote backslash null first⟩, others⟩
    | true =>
      rcases Text.lines_cons_of_break broken cs with own | ⟨tail, rfl, own⟩
      · rw [own]
        refine ⟨⟨_, .nil⟩, ?_⟩
        cases further : Text.lines cs with
        | nil => exact List.forall_mem_nil _
        | cons line more =>
          rw [further] at first others
          exact List.forall_mem_cons.mpr ⟨⟨m', first⟩, others⟩
      · rw [own]
        exact ⟨⟨_, .nil⟩, others⟩

/-! ### Escaping -/

/-- A text with its backslashes doubled and the quotes of each three in a row escaped. -/
def marked : List Char → List Char
  | '"' :: '"' :: '"' :: rest => '\\' :: '"' :: '\\' :: '"' :: '\\' :: '"' :: marked rest
  | '\\' :: rest => '\\' :: '\\' :: marked rest
  | c :: rest => c :: marked rest
  | [] => []

/-- What stands for a character that is not part of three quotes in a row. -/
def double (c : Char) : List Char :=
  if c = '\\' then ['\\', '\\'] else [c]

theorem double_of_ne {c : Char} (h : c ≠ '\\') : double c = [c] :=
  if_neg h

/-- Doubling makes no three quotes. -/
theorem after?_quotes_flatMap {c : Char} (h : ∀ rest, c = '"' → cs = '"' :: '"' :: rest → False) :
    Text.after? quotes (c :: cs.flatMap double) = none := by
  have other {d : Char} {ds : List Char} (hd : d ≠ '"') (expected : List Char) :
      Text.after? ('"' :: expected) ((d :: ds).flatMap double) = none := by
    by_cases hd' : d = '\\'
    · subst hd'
      rfl
    · rw [List.flatMap_cons, double_of_ne hd', List.singleton_append, Text.after?,
        if_neg (Ne.symm hd)]
  rw [quotes, Text.after?]
  split_ifs with first
  · cases cs with
    | nil => rfl
    | cons d ds =>
      by_cases second : d = '"'
      · subst second
        cases ds with
        | nil => rfl
        | cons e es =>
          have third : e ≠ '"' := by
            rintro rfl
            exact h es first.symm rfl
          exact other third []
      · exact other second ['"']
  · rfl

theorem replace_go_eq_marked {n : Nat} (h : (cs.flatMap double).length ≤ n) :
    Text.replace.go quotes ['\\', '"', '\\', '"', '\\', '"'] n (cs.flatMap double) = marked cs := by
  fun_induction marked cs generalizing n with
  | case1 rest ih =>
    change (rest.flatMap double).length + 3 ≤ n at h
    obtain ⟨n, rfl⟩ := Nat.exists_eq_add_of_le' (show 1 ≤ n by omega)
    change _ ++ Text.replace.go _ _ n (rest.flatMap double) = _
    rw [ih (by omega)]
    rfl
  | case2 rest ih =>
    change (rest.flatMap double).length + 2 ≤ n at h
    obtain ⟨n, rfl⟩ := Nat.exists_eq_add_of_le' (show 2 ≤ n by omega)
    change '\\' :: '\\' :: Text.replace.go _ _ n (rest.flatMap double) = _
    rw [ih (by omega)]
  | case3 c rest noQuotes backslash ih =>
    rw [List.flatMap_cons, double_of_ne backslash, List.singleton_append] at h ⊢
    rw [List.length_cons] at h
    obtain ⟨n, rfl⟩ := Nat.exists_eq_add_of_le' (show 1 ≤ n by omega)
    rw [Text.replace.go, after?_quotes_flatMap fun rest' hc hrest => noQuotes rest' hc hrest]
    dsimp only
    rw [ih (by omega)]
  | case4 =>
    cases n <;> rfl

theorem escape_eq (cs : List Char) : escape cs = escapeFinalQuote (marked (Text.trim cs)) := by
  rw [escape, Text.replace]
  exact congrArg escapeFinalQuote (replace_go_eq_marked (Nat.le_refl _))

theorem marked_cons {c : Char} (h : c ≠ '"') : marked (c :: cs) = double c ++ marked cs := by
  by_cases hc : c = '\\'
  · subst hc
    rfl
  · rw [double_of_ne hc, marked]
    · rfl
    · exact fun _ quote _ => h quote
    · exact hc

/-- Three quotes in a row stand on one side of any other character. -/
theorem marked_append_cons {c : Char} (h : c ≠ '"') :
    marked (u ++ c :: w) = marked u ++ marked (c :: w) := by
  fun_induction marked u with
  | case1 rest ih => simp only [List.cons_append, marked, ih]
  | case2 rest ih => simp only [List.cons_append, marked, ih]
  | case3 d rest noQuotes backslash ih =>
    rw [List.cons_append, marked, ih, List.cons_append]
    · intro rest' hd split
      rcases rest with _ | ⟨e, _ | ⟨f, rest⟩⟩
      · exact h (List.cons.inj split).1
      · exact h (List.cons.inj (List.cons.inj split).2).1
      · obtain ⟨he, tail⟩ := List.cons.inj split
        obtain ⟨hf, -⟩ := List.cons.inj tail
        exact noQuotes rest hd (by rw [he, hf])
    · exact backslash
  | case4 => rfl

theorem reads_double {c : Char} (quote : c ≠ '"') (null : c ≠ '\x00') : Reads k (double c) 0 := by
  by_cases hc : c = '\\'
  · subst hc
    exact .escape (.inl rfl) .nil
  · rw [double_of_ne hc]
    exact .char quote hc null .nil

/-- Where fewer than three quotes stand in a row, counting those before, escaping leaves text that
can stand in a literal. -/
theorem exists_reads_marked (null : '\x00' ∉ v) (hk : k ≤ 2)
    (few : k = 0 ∨ ¬ List.replicate (3 - k) '"' <+: v) : ∃ m, Reads k (marked v) m := by
  fun_induction marked v generalizing k with
  | case1 rest ih =>
    obtain ⟨m, reads⟩ := ih (fun h => null (by simp [h])) (Nat.zero_le 2) (.inl rfl)
    exact ⟨m, .escape (.inr rfl) (.escape (.inr rfl) (.escape (.inr rfl) reads))⟩
  | case2 rest ih =>
    obtain ⟨m, reads⟩ := ih (fun h => null (List.mem_cons_of_mem _ h)) (Nat.zero_le 2) (.inl rfl)
    exact ⟨m, .escape (.inl rfl) reads⟩
  | case3 c rest noQuotes backslash ih =>
    rw [List.mem_cons, not_or] at null
    by_cases quote : c = '"'
    · subst quote
      have next : k < 2 ∧ ¬ List.replicate (3 - (k + 1)) '"' <+: rest := by
        match k, hk, few with
        | 0, _, _ =>
          refine ⟨by decide, ?_⟩
          rintro ⟨rest', rfl⟩
          exact noQuotes rest' rfl rfl
        | 1, _, .inr few => exact ⟨by decide, fun h => few (List.cons_prefix_cons.mpr ⟨rfl, h⟩)⟩
        | 2, _, .inr few => exact absurd ⟨rest, rfl⟩ few
      obtain ⟨m, reads⟩ := ih null.2 next.1 (.inr next.2)
      exact ⟨m, .quote next.1 reads⟩
    · obtain ⟨m, reads⟩ := ih null.2 (Nat.zero_le 2) (.inl rfl)
      exact ⟨m, .char quote backslash (Ne.symm null.1) reads⟩
  | case4 => exact ⟨k, .nil⟩

/-- What stands for threefold quotes. -/
def marks (n : Nat) : List Char :=
  (List.replicate n ['\\', '"', '\\', '"', '\\', '"']).flatten

theorem reads_marks (n : Nat) : Reads 0 (marks n) 0 := by
  induction n with
  | zero => exact .nil
  | succ n ih => exact .escape (.inr rfl) (.escape (.inr rfl) (.escape (.inr rfl) ih))

theorem marks_succ (n : Nat) : marks (n + 1) = marks n ++ ['\\', '"', '\\', '"', '\\', '"'] := by
  rw [marks, List.replicate_succ', List.flatten_append]
  rfl

theorem marked_replicate (n : Nat) (hl : l < 3) :
    marked (List.replicate (3 * n + l) '"') = marks n ++ List.replicate l '"' := by
  induction n with
  | zero =>
    rw [Nat.mul_zero, Nat.zero_add]
    match l, hl with
    | 0, _ | 1, _ | 2, _ => rfl
  | succ n ih =>
    rw [show 3 * (n + 1) + l = 3 * n + l + 3 by omega]
    change '\\' :: '"' :: '\\' :: '"' :: '\\' :: '"' :: marked (List.replicate (3 * n + l) '"') = _
    rw [ih]
    rfl

/-! ### The end of a text -/

theorem escapeFinalQuote_concat : escapeFinalQuote (cs ++ ['"']) = cs ++ ['\\', '"'] := by
  induction cs with
  | nil => rfl
  | cons c cs ih =>
    rw [List.cons_append, escapeFinalQuote, ih, List.cons_append]
    intro _ empty
    simp at empty

theorem escapeFinalQuote_of_last (h : ∀ c ∈ cs.getLast?, c ≠ '"') : escapeFinalQuote cs = cs := by
  fun_induction escapeFinalQuote cs with
  | case1 => rfl
  | case2 => exact absurd rfl (h '"' rfl)
  | case3 c rest _ ih =>
    by_cases empty : rest = []
    · rw [empty, escapeFinalQuote]
    · rw [List.getLast?_cons_of_ne_nil empty] at h
      rw [ih h]

/-- A text is what stands before the quotes at its end, and these. -/
theorem exists_final_quotes (cs : List Char) :
    ∃ front n, cs = front ++ List.replicate n '"' ∧ ∀ c ∈ front.getLast?, c ≠ '"' := by
  induction cs using List.reverseRecOn with
  | nil => exact ⟨[], 0, rfl, by simp⟩
  | append_singleton cs c ih =>
    by_cases quote : c = '"'
    · obtain ⟨front, n, rfl, last⟩ := ih
      exact ⟨front, n + 1, by rw [quote, List.append_assoc, List.replicate_succ'], last⟩
    · exact ⟨cs ++ [c], 0, by simp, by simpa using quote⟩

/-- What stands before the quotes at the end of a text is escaped by itself. -/
theorem exists_marked_front (null : '\x00' ∉ u) (last : ∀ c ∈ u.getLast?, c ≠ '"') (n : Nat) :
    ∃ front, marked (u ++ List.replicate n '"') = front ++ marked (List.replicate n '"') ∧
      Reads 0 front 0 ∧ ∀ c ∈ front.getLast?, c ≠ '"' ∧ (c = '\\' ∨ c ∈ u.getLast?) := by
  rcases List.eq_nil_or_concat' u with rfl | ⟨v, c, rfl⟩
  · exact ⟨[], rfl, .nil, by simp⟩
  · have quote : c ≠ '"' := last c (by simp)
    rw [List.mem_append, List.mem_singleton, not_or] at null
    obtain ⟨m, reads⟩ := exists_reads_marked null.1 (Nat.zero_le 2) (.inl rfl)
    refine ⟨marked v ++ double c, ?_, reads.append (reads_double quote (Ne.symm null.2)), ?_⟩
    · rw [List.append_assoc, List.singleton_append, marked_append_cons quote, marked_cons quote,
        List.append_assoc]
    · by_cases backslash : c = '\\'
      · simp [double, backslash]
      · simp [double, backslash, quote]

/-- The last of three quotes loses its own backslash when it is escaped again. -/
theorem exists_marked_quotes {n : Nat} (positive : 0 < n) :
    ∃ front, marked (List.replicate n '"') = front ++ ['"'] ∧
      Reads 0 (front ++ ['\\', '"']) (if 3 ∣ n then 1 else 0) := by
  obtain ⟨q, l, hl, rfl⟩ : ∃ q l, l < 3 ∧ n = 3 * q + l + 1 :=
    ⟨(n - 1) / 3, (n - 1) % 3, by omega, by omega⟩
  match l, hl with
  | 0, _ =>
    refine ⟨marks q, marked_replicate (l := 1) q (by decide), ?_⟩
    rw [if_neg (by omega)]
    exact (reads_marks q).append (.escape (.inr rfl) .nil)
  | 1, _ =>
    refine ⟨marks q ++ ['"'], ?_, ?_⟩
    · rw [marked_replicate (l := 2) q (by decide), List.append_assoc]
      rfl
    · rw [if_neg (by omega), List.append_assoc]
      exact (reads_marks q).append (.quote (by decide) (.escape (.inr rfl) .nil))
  | 2, _ =>
    refine ⟨marks q ++ ['\\', '"', '\\', '"', '\\'], ?_, ?_⟩
    · rw [show 3 * q + 2 + 1 = 3 * (q + 1) + 0 by omega, marked_replicate (q + 1) (by decide),
        marks_succ, List.append_assoc, List.append_assoc]
      rfl
    · rw [if_pos (by omega), List.append_assoc]
      exact (reads_marks q).append
        (.escape (.inr rfl) (.escape (.inr rfl) (.escape (.inl rfl) (.quote (by decide) .nil))))

/-- An escaped description can stand in a literal; it leaves a quote that nothing escapes at its end
exactly if the description ends in threefold quotes. -/
theorem reads_escape {n : Nat} (null : '\x00' ∉ Text.trim text)
    (split : Text.trim text = u ++ List.replicate n '"') (last : ∀ c ∈ u.getLast?, c ≠ '"') :
    Reads 0 (escape text) (if 0 < n ∧ 3 ∣ n then 1 else 0) ∧
      ∀ c ∈ (escape text).getLast?, c = '"' ∨ c = '\\' ∨ c ∈ (Text.trim text).getLast? := by
  obtain ⟨front, whole, reads, final⟩ :=
    exists_marked_front (fun h => null (split ▸ List.mem_append_left _ h)) last n
  rw [escape_eq, split, whole]
  rcases Nat.eq_zero_or_pos n with rfl | positive
  · rw [List.replicate_zero, marked, List.append_nil, List.append_nil,
      escapeFinalQuote_of_last fun c hc => (final c hc).1]
    exact ⟨reads, fun c hc => .inr (final c hc).2⟩
  obtain ⟨back, quoted, reads'⟩ := exists_marked_quotes positive
  rw [quoted, ← List.append_assoc, escapeFinalQuote_concat]
  constructor
  · rw [List.append_assoc]
    simpa [positive] using reads.append reads'
  · intro c hc
    left
    simpa using hc.symm

/-! ### Line breaks -/

theorem mem_marked_iff {c : Char} (quote : c ≠ '"') (backslash : c ≠ '\\') :
    c ∈ marked cs ↔ c ∈ cs := by
  fun_induction marked cs <;> simp_all

theorem mem_escapeFinalQuote_iff {c : Char} (quote : c ≠ '"') (backslash : c ≠ '\\') :
    c ∈ escapeFinalQuote cs ↔ c ∈ cs := by
  fun_induction escapeFinalQuote cs <;> simp_all

/-- Escaping neither adds nor removes line breaks. -/
theorem unbroken_escape_iff : (∀ c ∈ escape text, Text.isLineBreak c = false) ↔
    ∀ c ∈ Text.trim text, Text.isLineBreak c = false := by
  have same {c : Char} (broken : Text.isLineBreak c = true) :
      c ∈ escape text ↔ c ∈ Text.trim text := by
    have quote : c ≠ '"' := by
      rintro rfl
      cases broken
    have backslash : c ≠ '\\' := by
      rintro rfl
      cases broken
    rw [escape_eq, mem_escapeFinalQuote_iff quote backslash, mem_marked_iff quote backslash]
  constructor
  · intro unbroken c hc
    by_contra broken
    exact broken (unbroken c ((same (Bool.of_not_eq_false broken)).mpr hc))
  · intro unbroken c hc
    by_contra broken
    exact broken (unbroken c ((same (Bool.of_not_eq_false broken)).mp hc))

/-! ### Rendering -/

theorem reads_of_blank (h : ∀ c ∈ cs, Text.isBlank c = true) : Reads 0 cs 0 := by
  induction cs with
  | nil => exact .nil
  | cons c cs ih =>
    rw [List.forall_mem_cons] at h
    refine .char ?_ ?_ ?_ (ih h.2)
    all_goals
      rintro rfl
      cases h.1

theorem exists_reads_indentLine (blank : ∀ c ∈ indent, Text.isBlank c = true)
    (h : Reads 0 cs m) : ∃ m', Reads 0 (indentLine indent cs) m' := by
  rw [indentLine]
  split_ifs
  · exact ⟨0, .nil⟩
  · exact ⟨m, (reads_of_blank blank).append h⟩

/-- A newline ends any quotes in a row. -/
theorem reads_newline (h : Reads 0 cs m) : Reads k ('\n' :: cs) m :=
  .char (by decide) (by decide) (by decide) h

theorem exists_reads_joinWith {lines : List (List Char)} (h : ∀ line ∈ lines, ∃ m, Reads 0 line m) :
    ∃ m, Reads 0 (Text.joinWith ['\n'] lines) m := by
  induction lines with
  | nil => exact ⟨0, .nil⟩
  | cons first rest ih =>
    rw [List.forall_mem_cons] at h
    obtain ⟨m, reads⟩ := h.1
    obtain ⟨m', reads'⟩ := ih h.2
    cases rest with
    | nil => exact ⟨m, reads⟩
    | cons second rest =>
      refine ⟨m', ?_⟩
      rw [Text.joinWith, List.append_assoc]
      · exact reads.append (reads_newline reads')
      · exact List.cons_ne_nil _ _

/-- The quotes on a line of their own close a literal. -/
theorem isLiteral_of_lines (blank : ∀ c ∈ indent, Text.isBlank c = true) {line : List Char}
    {more : List (List Char)} (first : Reads 0 line m) (others : ∀ l ∈ more, ∃ m', Reads 0 l m') :
    IsLiteral (quotes ++ line ++ ['\n'] ++
      Text.joinWith ['\n'] (more.map (indentLine indent)) ++ ['\n'] ++ indent ++ quotes) := by
  have indented : ∀ l ∈ more.map (indentLine indent), ∃ m, Reads 0 l m := by
    rw [List.forall_mem_map]
    intro l hl
    obtain ⟨_, reads⟩ := others l hl
    exact exists_reads_indentLine blank reads
  obtain ⟨m', body⟩ := exists_reads_joinWith indented
  have inner := first.append (reads_newline (body.append (reads_newline (reads_of_blank blank))))
  refine ⟨line ++ '\n' :: (Text.joinWith ['\n'] (more.map (indentLine indent)) ++
    '\n' :: indent) ++ quotes, by simp, ?_⟩
  rw [rest?_append inner]
  rfl

/-- A description whose literal is closed by the last quotes but one: a single line that ends in
threefold quotes. -/
def ClosesEarly (text : List Char) : Prop :=
  (∀ c ∈ Text.trim text, Text.isLineBreak c = false) ∧
    ∃ front n, 0 < n ∧ Text.trim text = front ++ List.replicate (3 * n) '"' ∧
      ∀ c ∈ front.getLast?, c ≠ '"'

/-- The literal of a description on a single line. -/
theorem isLiteral_single_iff (h : Reads 0 cs m) :
    IsLiteral (quotes ++ cs ++ quotes) ↔ rest? m quotes = some [] := by
  constructor
  · rintro ⟨body, whole, closed⟩
    rw [List.append_assoc, List.append_cancel_left_eq] at whole
    rwa [← whole, rest?_append h] at closed
  · intro closed
    exact ⟨cs ++ quotes, List.append_assoc _ _ _, by rw [rest?_append h, closed]⟩

/-- **Docstrings are literals but for one exception.** A description without null characters is
rendered, behind an indent of white space, as a literal between threefold quotes which its last
three characters and no earlier ones close, exactly if it is not a single line that ends in
threefold quotes. -/
theorem isLiteral_render_iff (null : '\x00' ∉ text)
    (blank : ∀ c ∈ indent, Text.isBlank c = true) :
    (∃ literal, render text indent = indent ++ literal ∧ IsLiteral literal) ↔
      ¬ ClosesEarly text := by
  have trimmed : '\x00' ∉ Text.trim text := fun h => null (Text.mem_of_mem_trim h)
  constructor
  · rintro ⟨literal, rendered, isLiteral⟩ ⟨unbroken, front, n, positive, split, last⟩
    have reads := (reads_escape trimmed split last).1
    rw [if_pos ⟨by omega, Nat.dvd_mul_right 3 n⟩] at reads
    have nonempty : escape text ≠ [] := by
      intro empty
      rw [empty] at reads
      cases reads
    rw [render, Text.lines_of_unbroken nonempty (unbroken_escape_iff.mpr unbroken)] at rendered
    simp only [List.append_assoc, List.append_cancel_left_eq] at rendered
    rw [← rendered, ← List.append_assoc, isLiteral_single_iff reads] at isLiteral
    cases isLiteral
  · intro late
    obtain ⟨front, n, split, last⟩ := exists_final_quotes (Text.trim text)
    obtain ⟨reads, final⟩ := reads_escape trimmed split last
    have ends : ∀ c ∈ (escape text).getLast?, Text.isLineBreak c = false := by
      intro c hc
      rcases final c hc with rfl | rfl | kept
      · rfl
      · rfl
      · exact Text.getLast?_trim c kept
    rw [render]
    split
    · exact ⟨quotes ++ quotes, List.append_assoc _ _ _, quotes, rfl, rfl⟩
    · next line single =>
      have unbroken := Text.unbroken_of_lines_eq single ends
      have nonempty : escape text ≠ [] := by
        intro empty
        rw [empty] at single
        cases single
      rw [Text.lines_of_unbroken nonempty unbroken] at single
      obtain ⟨rfl, -⟩ := List.cons.inj single
      have plain : ¬ (0 < n ∧ 3 ∣ n) := by
        rintro ⟨positive, n, rfl⟩
        exact late ⟨unbroken_escape_iff.mp unbroken, front, n, by omega, split, last⟩
      rw [if_neg plain] at reads
      exact ⟨quotes ++ escape text ++ quotes, by simp, (isLiteral_single_iff reads).mpr rfl⟩
    · next line more _ several =>
      obtain ⟨⟨m, first⟩, others⟩ := reads.lines
      simp only [several, List.headD_cons, List.tail_cons] at first others
      exact ⟨_, by simp only [List.append_assoc], isLiteral_of_lines blank first others⟩

/-- Quotes and backslashes at the end of a description of two lines. -/
theorem isLiteral_render_iff_path :
    ∃ literal, render "In quotes:\n\"\"\"C:\\\"\"\"".toList "    ".toList =
      "    ".toList ++ literal ∧ IsLiteral literal := by
  refine (isLiteral_render_iff (by decide) (List.all_eq_true.mp (by decide))).mpr ?_
  rintro ⟨unbroken, -⟩
  exact absurd (unbroken '\n' (by decide)) (by decide)

/-- The backslash before the last quote is taken along by the one before it, and the quotes that
follow close the literal one character early. -/
theorem not_isLiteral_render_quoted :
    let literal := render "a\"\"\"".toList []
    literal = "\"\"\"a\\\"\\\"\\\\\"\"\"\"".toList ∧ rest? 0 (literal.drop 3) = some ['"'] ∧
      ¬ IsLiteral literal := by
  intro literal
  have rendered : literal = "\"\"\"a\\\"\\\"\\\\\"\"\"\"".toList := by decide
  have left : rest? 0 (literal.drop 3) = some ['"'] := by
    rw [rendered]
    decide
  refine ⟨rendered, left, ?_⟩
  rintro ⟨body, whole, closed⟩
  rw [whole] at left
  change rest? 0 body = _ at left
  rw [closed] at left
  cases left

end Lexicon.Docstring
