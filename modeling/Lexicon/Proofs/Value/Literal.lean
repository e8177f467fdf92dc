import Mathlib.Data.List.Basic
import Lexicon.Proofs.Json.Decoded
import Lexicon.Proofs.Json.Number
import Lexicon.Proofs.Text.Quoted
import Lexicon.Value.Literal

/-!
# Literals are read as what was written

A literal is a word, a number, quoted text, or values between brackets. Texts that follow each other
are read as one, and within brackets a line may end wherever a blank may stand. Main statements:
what stands for the parts of a list or an object stands, put together, for the whole; and the
literal of a value stands for that value.
-/

/-- Characters that stand for themselves between double quotes. -/
def Lexicon.Text.IsBare (cs : List Char) : Prop :=
  ∀ c ∈ cs, c ≠ '"' ∧ c ≠ '\\' ∧ 0x20 ≤ c.toNat

namespace Lexicon.Literal

/-! ### Reading -/

/-- Whether a character may stand between two tokens; a line may end within brackets only. -/
def isGap (nested : Bool) (c : Char) : Bool :=
  c == ' ' || (nested && c == '\n')

/-- The text from the next token on. -/
def skipGap (nested : Bool) (cs : List Char) : List Char :=
  cs.dropWhile (isGap nested)

/-- Whether quoted text comes next, after a gap. -/
def continues (nested : Bool) (cs : List Char) : Bool :=
  (cs.head?.any (isGap nested)) &&
    (skipGap nested cs).head?.any fun c => decide (Text.Quoted.IsQuote c)

/-- Quoted text, and whatever quoted text follows after a gap. The second argument bounds the number
of quoted texts. -/
def text? (nested : Bool) : ℕ → List Char → Option (List Char × List Char)
  | 0, _ => none
  | _ + 1, [] => none
  | fuel + 1, quote :: rest =>
    if Text.Quoted.IsQuote quote then
      (Text.Quoted.characters? quote rest.length rest).bind fun r =>
        if continues nested r.2 then
          (text? nested fuel (skipGap nested r.2)).map fun r' => (r.1 ++ r'.1, r'.2)
        else some r
    else none

/-- The words that stand for values. -/
def words : List (List Char × Value) :=
  [("None".toList, .null), ("True".toList, .bool true), ("False".toList, .bool false)]

/-- A word or a number. -/
def scalar? (cs : List Char) : Option (Value × List Char) :=
  match words.find? fun w => w.1.isPrefixOf cs with
  | some (word, v) => some (v, cs.drop word.length)
  | none => (Json.number ⟨0, cs⟩).toOption.map fun r => (r.1, r.2.rest)

/-- Parts with a comma between two of them, up to the closing bracket, and what follows it. The last
argument but one bounds the number of parts. -/
def parts? {α : Type} (close : Char) (part? : List Char → Option (α × List Char)) :
    ℕ → List Char → Option (List α × List Char)
  | 0, _ => none
  | fuel + 1, cs =>
    if cs.head? = some close then some ([], cs.tail)
    else (part? cs).bind fun r =>
      match skipGap true r.2 with
      | [] => none
      | c :: rest =>
        if c = close then some ([r.1], rest)
        else if c = ',' then
          (parts? close part? fuel (skipGap true rest)).map fun r' => (r.1 :: r'.1, r'.2)
        else none

/-- A key, a colon and a value, and what follows them. -/
def keyed? (value? : List Char → Option (Value × List Char)) (cs : List Char) :
    Option ((String × Value) × List Char) :=
  (text? true cs.length cs).bind fun k =>
    match skipGap true k.2 with
    | ':' :: rest => (value? (skipGap true rest)).map fun v => ((String.ofList k.1, v.1), v.2)
    | _ => none

/-- A value at the beginning of a text, and what follows it. The second argument bounds the depth of
the value. -/
def value? (nested : Bool) : ℕ → List Char → Option (Value × List Char)
  | 0, _ => none
  | _ + 1, [] => none
  | fuel + 1, c :: rest =>
    if c = '[' then
      (parts? ']' (value? true fuel) rest.length (skipGap true rest)).map fun r => (.list r.1, r.2)
    else if c = '\x7b' then
      (parts? '\x7d' (keyed? (value? true fuel)) rest.length (skipGap true rest)).map fun r =>
        (.object (Entries.ofList r.1), r.2)
    else if Text.Quoted.IsQuote c then
      (text? nested (rest.length + 1) (c :: rest)).map fun r => (.str (String.ofList r.1), r.2)
    else scalar? (c :: rest)

/-- The value that a whole text stands for. -/
def read? (cs : List Char) : Option Value :=
  match value? false cs.length cs with
  | some (v, []) => some v
  | _ => none

/-! ### What stands for a value -/

/-- What may follow a value: punctuation, or nothing. -/
def Ends (rest : List Char) : Prop :=
  ∀ c, rest.head? = some c → c = ',' ∨ c = ':' ∨ c = ']' ∨ c = '\x7d'

/-- A text does not begin with a gap or a closing bracket. -/
def Begins (t : List Char) : Prop :=
  ∃ c, t.head? = some c ∧ isGap true c = false ∧ c ≠ ']' ∧ c ≠ '\x7d'

/-- A text stands for a part of something between brackets. -/
structure ReadsPart {α : Type} (part? : List Char → Option (α × List Char)) (t : List Char)
    (a : α) : Prop where
  begins : Begins t
  read : ∀ rest, Ends rest → part? (t ++ rest) = some (a, rest)

/-- A text stands for a value wherever a value may stand between brackets. -/
def Reads (t : List Char) (v : Value) : Prop :=
  ∀ fuel ≥ t.length, ReadsPart (value? true fuel) t v

/-- A text stands for an entry: a quoted key, a colon and a value. -/
def ReadsEntry (t : List Char) (e : String × Value) : Prop :=
  ∃ u, t = Text.Quoted.encode e.1.toList ++ ':' :: ' ' :: u ∧ Reads u e.2

/-- What begins like a value is not empty, so that one step of reading is always left. -/
theorem Reads.intro {t : List Char} {v : Value} (begins : Begins t)
    (read : ∀ fuel, t.length ≤ fuel + 1 → ∀ rest, Ends rest →
      value? true (fuel + 1) (t ++ rest) = some (v, rest)) : Reads t v := by
  intro fuel hfuel
  have proper : t ≠ [] := by
    rintro rfl
    obtain ⟨c, hc, -⟩ := begins
    cases hc
  have nonempty := List.length_pos_iff.mpr proper
  obtain ⟨fuel, rfl⟩ := Nat.exists_eq_add_one_of_ne_zero (nonempty.trans_le hfuel).ne'
  exact ⟨begins, read fuel hfuel⟩

/-! ### Between two tokens -/

/-- Characters that may stand between two tokens within brackets. -/
def IsGap (gap : List Char) : Prop :=
  ∀ c ∈ gap, isGap true c = true

theorem isGap_nil : IsGap [] :=
  nofun

theorem isGap_blank : IsGap [' '] := by
  simp [IsGap, isGap]

theorem skipGap_append {gap rest : List Char} (h : IsGap gap)
    (stop : ∀ c, rest.head? = some c → isGap true c = false) :
    skipGap true (gap ++ rest) = rest := by
  unfold skipGap
  rw [List.dropWhile_append_of_pos h]
  cases rest with
  | nil => rfl
  | cons c rest => simp [stop c rfl]

theorem skipGap_of_ends {rest : List Char} (h : Ends rest) : skipGap true rest = rest := by
  refine skipGap_append isGap_nil fun c hc => ?_
  rcases h c hc with rfl | rfl | rfl | rfl <;> rfl

theorem Begins.skipGap_append {t : List Char} (h : Begins t) {gap : List Char} (hgap : IsGap gap)
    (rest : List Char) : skipGap true (gap ++ (t ++ rest)) = t ++ rest := by
  obtain ⟨c, hc, stop, -⟩ := h
  obtain ⟨cs, rfl⟩ := List.head?_eq_some_iff.mp hc
  refine Literal.skipGap_append hgap ?_
  rintro _ ⟨⟩
  exact stop

theorem ends_cons {c : Char} (h : c = ',' ∨ c = ':' ∨ c = ']' ∨ c = '\x7d')
    (rest : List Char) : Ends (c :: rest) := by
  rintro _ ⟨⟩
  exact h

/-! ### Parts between brackets -/

theorem exists_intercalate_cons (sep t : List Char) (ts : List (List Char)) :
    ∃ u, sep.intercalate (t :: ts) = t ++ u := by
  cases ts with
  | nil => exact ⟨[], by simp⟩
  | cons t' ts => exact ⟨_, by rw [List.intercalate_cons_cons, List.append_assoc]⟩

theorem length_le_intercalate (sep : List Char) {t : List Char} {ts : List (List Char)}
    (h : t ∈ ts) : t.length ≤ (sep.intercalate ts).length := by
  induction ts with
  | nil => cases h
  | cons t' ts ih =>
    cases ts with
    | nil => simp [List.mem_singleton.mp h]
    | cons t'' ts =>
      rw [List.intercalate_cons_cons, List.length_append, List.length_append]
      rcases List.mem_cons.mp h with rfl | h
      · omega
      · have := ih h
        omega

section Parts

variable {α : Type} {part? : List Char → Option (α × List Char)} {close : Char}
  (hclose : close = ']' ∨ close = '\x7d') {gap : List Char}

include hclose

/-- The text that stands for parts is what comes after a gap. -/
theorem skipGap_intercalate (sep : List Char) {ts : List (List Char)} {as : List α}
    (h : List.Forall₂ (ReadsPart part?) ts as) (hgap : IsGap gap) (rest : List Char) :
    skipGap true (gap ++ (sep.intercalate ts ++ close :: rest)) =
      sep.intercalate ts ++ close :: rest := by
  cases h with
  | nil =>
    refine skipGap_append hgap ?_
    rintro _ ⟨⟩
    rcases hclose with rfl | rfl <;> rfl
  | @cons t a ts as ht hts =>
    obtain ⟨u, hu⟩ := exists_intercalate_cons sep t ts
    rw [hu, List.append_assoc]
    exact ht.begins.skipGap_append hgap _

/-- Texts that stand for parts, with commas and gaps between them, are read as those parts. -/
theorem parts?_intercalate {ts : List (List Char)} {as : List α}
    (h : List.Forall₂ (ReadsPart part?) ts as) (hgap : IsGap gap) {fuel : ℕ} (rest : List Char)
    (hfuel : ((',' :: gap).intercalate ts).length < fuel) :
    parts? close part? fuel ((',' :: gap).intercalate ts ++ close :: rest) = some (as, rest) := by
  have last : Ends (close :: rest) := ends_cons (by rcases hclose with rfl | rfl <;> simp) rest
  have comma : ',' ≠ close := by rcases hclose with rfl | rfl <;> decide
  induction h generalizing fuel with
  | nil =>
    obtain ⟨fuel, rfl⟩ := Nat.exists_eq_add_one_of_ne_zero (Nat.ne_of_gt hfuel)
    simp [parts?]
  | @cons t a ts as ht hts ih =>
    obtain ⟨fuel, rfl⟩ := Nat.exists_eq_add_one_of_ne_zero (Nat.ne_of_gt (Nat.zero_lt_of_lt hfuel))
    have head (rest : List Char) : (t ++ rest).head? ≠ some close := by
      obtain ⟨c, hc, -, bracket, brace⟩ := ht.begins
      rcases hclose with rfl | rfl <;> simp [List.head?_append, hc, bracket, brace]
    cases hts with
    | nil =>
      rw [List.intercalate_singleton, parts?, if_neg (head _), ht.read _ last, Option.bind_some,
        skipGap_of_ends last]
      simp
    | @cons t' a' ts as ht' hts =>
      rw [List.intercalate_cons_cons] at hfuel ⊢
      simp only [List.length_append, List.length_cons] at hfuel
      have more : Ends (',' :: (gap ++ ((',' :: gap).intercalate (t' :: ts) ++ close :: rest))) :=
        ends_cons (by simp) _
      have next := skipGap_intercalate hclose (',' :: gap) (.cons ht' hts) hgap rest
      have read : parts? close part? fuel _ = _ := ih (by omega)
      simp only [List.append_assoc, List.cons_append]
      rw [parts?, if_neg (head _), ht.read _ more, Option.bind_some, skipGap_of_ends more]
      simp only [next, read, if_neg comma, if_true, Option.map_some]

end Parts

/-! ### Quoted text -/

theorem continues_of_ends {rest : List Char} (h : Ends rest) : continues true rest = false := by
  cases rest with
  | nil => rfl
  | cons c rest => rcases h c rfl with rfl | rfl | rfl | rfl <;> rfl

theorem begins_encode (cs : List Char) : Begins (Text.Quoted.encode cs) := by
  obtain ⟨quote, inner, hquote, text, -⟩ := Text.Quoted.exists_encode cs
  refine ⟨quote, by rw [text]; rfl, ?_⟩
  rcases hquote with rfl | rfl <;> decide

theorem continues_append {gap cs : List Char} (hgap : IsGap gap) (proper : gap ≠ [])
    (rest : List Char) : continues true (gap ++ (Text.Quoted.encode cs ++ rest)) = true := by
  have next := (begins_encode cs).skipGap_append hgap rest
  obtain ⟨quote, inner, hquote, text, -⟩ := Text.Quoted.exists_encode cs
  obtain ⟨g, gs, rfl⟩ := List.exists_cons_of_ne_nil proper
  rw [continues, next, text]
  simp [hgap g List.mem_cons_self, hquote]

/-- Quoted texts with gaps between them are read as one text. -/
theorem text?_intercalate {gap : List Char} (hgap : IsGap gap) (proper : gap ≠ [])
    {ps : List (List Char)} (nonempty : ps ≠ []) {rest : List Char} (ends : Ends rest) {fuel : ℕ}
    (hfuel : ps.length ≤ fuel) :
    text? true fuel (gap.intercalate (ps.map Text.Quoted.encode) ++ rest) =
      some (ps.flatten, rest) := by
  induction ps generalizing fuel with
  | nil => exact absurd rfl nonempty
  | cons p ps ih =>
    obtain ⟨fuel, rfl⟩ := Nat.exists_eq_add_one_of_ne_zero (Nat.ne_of_gt (Nat.zero_lt_of_lt hfuel))
    obtain ⟨quote, inner, hquote, text, read⟩ := Text.Quoted.exists_encode p
    cases ps with
    | nil =>
      simp only [List.map_cons, List.map_nil, List.intercalate_singleton, text, List.cons_append,
        List.append_assoc, List.nil_append]
      rw [text?, if_pos hquote, read _ (by simp)]
      simp [continues_of_ends ends]
    | cons p' ps =>
      obtain ⟨u, hu⟩ := exists_intercalate_cons gap (Text.Quoted.encode p')
        (ps.map Text.Quoted.encode)
      have more : text? true fuel _ = _ := ih (by simp) (Nat.le_of_succ_le_succ hfuel)
      rw [List.map_cons, hu, List.append_assoc] at more
      rw [List.map_cons, List.map_cons, List.intercalate_cons_cons, hu, text]
      simp only [List.cons_append, List.append_assoc, List.nil_append]
      rw [text?, if_pos hquote, read _ (by simp), Option.bind_some,
        if_pos (continues_append hgap proper _), (begins_encode p').skipGap_append hgap, more]
      rfl

/-! ### Values -/

theorem follows_of_ends {rest : List Char} (h : Ends rest) : Json.Follows rest := by
  cases rest with
  | nil => exact ⟨nofun, by simp, rfl⟩
  | cons c rest =>
    rcases h c rfl with rfl | rfl | rfl | rfl
    all_goals exact ⟨by rintro _ ⟨⟩; rfl, by simp, rfl⟩

theorem reads_number {t : List Char} {v : Value} (h : Json.ReadsAs t v) : Reads t v := by
  have alone := h 0 [] ⟨nofun, by simp, rfl⟩
  rw [List.append_nil] at alone
  obtain ⟨c, hc, number⟩ := Json.head?_of_number alone
  obtain ⟨cs, rfl⟩ := List.head?_eq_some_iff.mp hc
  have other (d : Char) (hd : d ≠ '-' ∧ d.isDigit = false) : c ≠ d := by
    rintro rfl
    rcases number with rfl | digit
    · exact hd.1 rfl
    · simp [hd.2] at digit
  have word (rest : List Char) :
      words.find? (fun w => w.1.isPrefixOf (c :: cs ++ rest)) = none := by
    simp [words, (other 'N' (by decide)).symm, (other 'T' (by decide)).symm,
      (other 'F' (by decide)).symm]
  have quote : ¬ Text.Quoted.IsQuote c := by
    rintro (h | h)
    · exact other '\'' (by decide) h
    · exact other '"' (by decide) h
  refine .intro ⟨c, rfl, ?_, other ']' (by decide), other '\x7d' (by decide)⟩
    fun fuel _ rest ends => ?_
  · simp [isGap, other ' ' (by decide), other '\n' (by decide)]
  · have read := h 0 rest (follows_of_ends ends)
    rw [List.cons_append, value?, if_neg (other '[' (by decide)), if_neg (other '\x7b' (by decide)),
      if_neg quote, scalar?, ← List.cons_append, word, read]
    rfl

theorem reads_null : Reads "None".toList .null :=
  .intro ⟨'N', rfl, by decide⟩ fun _ _ _ _ => rfl

theorem reads_bool (b : Bool) : Reads (if b then "True" else "False").toList (.bool b) := by
  cases b with
  | true => exact .intro ⟨'T', rfl, by decide⟩ fun _ _ _ _ => rfl
  | false => exact .intro ⟨'F', rfl, by decide⟩ fun _ _ _ _ => rfl

theorem length_le_intercalate_encode (gap : List Char) (ps : List (List Char)) :
    ps.length ≤ (gap.intercalate (ps.map Text.Quoted.encode)).length := by
  induction ps with
  | nil => simp
  | cons p ps ih =>
    have quotes : 0 < (Text.Quoted.encode p).length := by simp [Text.Quoted.encode]
    cases ps with
    | nil => simpa using Nat.succ_le_of_lt quotes
    | cons p' ps =>
      simp only [List.map_cons, List.intercalate_cons_cons, List.length_append,
        List.length_cons] at ih ⊢
      omega

/-- Quoted texts with gaps between them stand for the text that they make up. -/
theorem reads_text {gap : List Char} (hgap : IsGap gap) (proper : gap ≠ [])
    {ps : List (List Char)} (nonempty : ps ≠ []) :
    Reads (gap.intercalate (ps.map Text.Quoted.encode)) (.str (String.ofList ps.flatten)) := by
  have many := length_le_intercalate_encode gap ps
  have read (fuel : ℕ) (hfuel : ps.length ≤ fuel) (rest : List Char) (ends : Ends rest) :=
    text?_intercalate hgap proper nonempty ends hfuel
  obtain ⟨p, ps', rfl⟩ := List.exists_cons_of_ne_nil nonempty
  obtain ⟨u, hu⟩ := exists_intercalate_cons gap (Text.Quoted.encode p)
    (ps'.map Text.Quoted.encode)
  obtain ⟨quote, inner, hquote, text, -⟩ := Text.Quoted.exists_encode p
  rw [List.map_cons, hu, text, List.cons_append] at many read ⊢
  refine .intro ⟨quote, rfl, ?_⟩ fun fuel _ rest ends => ?_
  · rcases hquote with rfl | rfl <;> decide
  · have other : quote ≠ '[' ∧ quote ≠ '\x7b' := by rcases hquote with rfl | rfl <;> decide
    rw [List.cons_append, value?, if_neg other.1, if_neg other.2, if_pos hquote,
      ← List.cons_append, read _ ?_ rest ends]
    · rfl
    · rw [List.length_append]
      exact many.trans (Nat.succ_le_succ (Nat.le_add_right _ _))

theorem reads_quoted (s : String) : Reads (Text.quoted s).toList (.str s) := by
  have alone : [s.toList] ≠ [] := by simp
  simpa [Text.quoted] using reads_text isGap_blank (by simp) alone

/-- Texts that stand for values, with commas between them, stand for a list within brackets. -/
theorem reads_list {gap : List Char} (hgap : IsGap gap) {ts : List (List Char)} {vs : List Value}
    (h : List.Forall₂ Reads ts vs) :
    Reads ('[' :: ((',' :: gap).intercalate ts ++ [']'])) (.list vs) := by
  refine .intro ⟨'[', rfl, by decide⟩ fun fuel hfuel rest _ => ?_
  simp only [List.length_cons, List.length_append] at hfuel
  have parts : List.Forall₂ (ReadsPart (value? true fuel)) ts vs := by
    refine h.imp_mem fun t ht v _ read => read fuel ?_
    have := length_le_intercalate (',' :: gap) ht
    omega
  have next := skipGap_intercalate (.inl rfl) (',' :: gap) parts isGap_nil rest
  rw [List.nil_append] at next
  simp only [List.cons_append, List.append_assoc, List.nil_append, value?, if_true, next]
  rw [parts?_intercalate (.inl rfl) parts hgap rest (by simp)]
  rfl

theorem ReadsEntry.part {t : List Char} {e : String × Value} (h : ReadsEntry t e) {fuel : ℕ}
    (hfuel : t.length ≤ fuel) : ReadsPart (keyed? (value? true fuel)) t e := by
  obtain ⟨u, rfl, hu⟩ := h
  rw [List.length_append, List.length_cons, List.length_cons] at hfuel
  have value := hu fuel (by omega)
  obtain ⟨c, hc, stop⟩ := begins_encode e.1.toList
  refine ⟨⟨c, by simp [List.head?_append, hc], stop⟩, fun rest ends => ?_⟩
  have colon : Ends (':' :: ' ' :: (u ++ rest)) := ends_cons (by simp) _
  have key : text? true (Text.Quoted.encode e.1.toList ++ ':' :: ' ' :: (u ++ rest)).length
      (Text.Quoted.encode e.1.toList ++ ':' :: ' ' :: (u ++ rest)) =
        some (e.1.toList, ':' :: ' ' :: (u ++ rest)) := by
    have alone : [e.1.toList].length ≤
        (Text.Quoted.encode e.1.toList ++ ':' :: ' ' :: (u ++ rest)).length := by
      simp [Nat.succ_le_iff]
    simpa using text?_intercalate isGap_blank (by simp) (by simp) colon alone
  have next : skipGap true (' ' :: (u ++ rest)) = u ++ rest :=
    value.begins.skipGap_append isGap_blank rest
  simp only [List.append_assoc, List.cons_append, keyed?, key, Option.bind_some,
    skipGap_of_ends colon, next, value.read rest ends, Option.map_some, String.ofList_toList]

/-- Texts that stand for entries, with commas between them, stand for an object within braces. -/
theorem reads_object {gap : List Char} (hgap : IsGap gap) {ts : List (List Char)}
    {es : Entries Value} (keys : (Entries.keys es).Nodup) (h : List.Forall₂ ReadsEntry ts es) :
    Reads ('\x7b' :: ((',' :: gap).intercalate ts ++ ['\x7d'])) (.object es) := by
  refine .intro ⟨'\x7b', rfl, by decide⟩ fun fuel hfuel rest _ => ?_
  simp only [List.length_cons, List.length_append] at hfuel
  have parts : List.Forall₂ (ReadsPart (keyed? (value? true fuel))) ts es := by
    refine h.imp_mem fun t ht e _ read => read.part ?_
    have := length_le_intercalate (',' :: gap) ht
    omega
  have next := skipGap_intercalate (.inr rfl) (',' :: gap) parts isGap_nil rest
  rw [List.nil_append] at next
  have brace : '\x7b' ≠ '[' := by decide
  simp only [List.cons_append, List.append_assoc, List.nil_append, value?, if_neg brace, if_true,
    next]
  rw [parts?_intercalate (.inr rfl) parts hgap rest (by simp), Option.map_some,
    Entries.ofList_of_nodup keys]

/-- What stands for a value between brackets is read as that value when it stands alone, unless it
begins with quoted text, which may not go on after the end of a line. -/
theorem read?_of_reads {t : List Char} {v : Value} (h : Reads t v)
    (bare : ∀ c, t.head? = some c → ¬ Text.Quoted.IsQuote c) : read? t = some v := by
  have part := h t.length le_rfl
  obtain ⟨c, hc, -⟩ := part.begins
  obtain ⟨cs, rfl⟩ := List.head?_eq_some_iff.mp hc
  have alone :
      value? false (c :: cs).length (c :: cs) = value? true (c :: cs).length (c :: cs) := by
    simp only [List.length_cons, value?, if_neg (bare c hc)]
  have read := part.read [] nofun
  rw [List.append_nil] at read
  rw [read?, alone, read]

/-- What stands between two quotes is read as a text, wherever the literal ends. -/
theorem read?_of_characters? {quote : Char} (hquote : Text.Quoted.IsQuote quote)
    {inner cs : List Char} (read : ∀ fuel > inner.length, ∀ rest,
      Text.Quoted.characters? quote fuel (inner ++ quote :: rest) = some (cs, rest)) :
    read? (quote :: (inner ++ [quote])) = some (.str (String.ofList cs)) := by
  have other : quote ≠ '[' ∧ quote ≠ '\x7b' := by rcases hquote with rfl | rfl <;> decide
  rw [read?, List.length_cons, value?, if_neg other.1, if_neg other.2, if_pos hquote, text?,
    if_pos hquote, read _ (by simp)]
  rfl

theorem read?_quoted (s : String) : read? (Text.quoted s).toList = some (.str s) := by
  obtain ⟨quote, inner, hquote, text, read⟩ := Text.Quoted.exists_encode s.toList
  rw [Text.quoted, String.toList_ofList, text, read?_of_characters? hquote read,
    String.ofList_toList]

/-- A text that holds nothing that needs an escape stands for itself between double quotes. -/
theorem read?_plain {cs : List Char} (plain : Text.IsBare cs) :
    read? ('"' :: (cs ++ ['"'])) = some (.str (String.ofList cs)) := by
  refine read?_of_characters? (.inr rfl) fun fuel hfuel rest => ?_
  induction cs generalizing fuel with
  | nil =>
    obtain ⟨fuel, rfl⟩ := Nat.exists_eq_add_one_of_ne_zero (Nat.ne_of_gt hfuel)
    rfl
  | cons c cs ih =>
    obtain ⟨fuel, rfl⟩ := Nat.exists_eq_add_one_of_ne_zero (Nat.ne_of_gt (Nat.zero_lt_of_lt hfuel))
    obtain ⟨⟨quote, backslash, visible⟩, plain⟩ := List.forall_mem_cons.mp plain
    rw [List.cons_append, Text.Quoted.characters?, if_neg quote, if_neg backslash,
      if_neg (Nat.not_lt.mpr visible), ih plain fuel (Nat.lt_of_succ_lt_succ hfuel)]
    rfl

theorem bare_of_readsAs {t : List Char} {v : Value} (h : Json.ReadsAs t v) :
    ∀ c, t.head? = some c → ¬ Text.Quoted.IsQuote c := by
  have alone := h 0 [] ⟨nofun, by simp, rfl⟩
  rw [List.append_nil] at alone
  obtain ⟨first, hfirst, number⟩ := Json.head?_of_number alone
  intro c hc
  obtain rfl := Option.some.inj (hfirst.symm.trans hc)
  rintro (rfl | rfl)
  · exact absurd number (by decide)
  · exact absurd number (by decide)

end Lexicon.Literal

namespace Lexicon.Value

open Lexicon.Literal

/-- Values that the literals of null, truth values, numbers, texts, lists and objects can stand for:
every number is finite, and no object has a key twice. -/
inductive HasLiteral : Value → Prop
  | null : HasLiteral .null
  | bool (b : Bool) : HasLiteral (.bool b)
  | int (n : Int) : HasLiteral (.int n)
  | float {x : Binary64} (finite : x.isFinite = true) : HasLiteral (.float x)
  | str (s : String) : HasLiteral (.str s)
  | list {items : List Value} (h : ∀ x ∈ items, HasLiteral x) : HasLiteral (.list items)
  | object {es : Entries Value} (keys : (Entries.keys es).Nodup) (h : ∀ e ∈ es, HasLiteral e.2) :
      HasLiteral (.object es)

/-- No number in a value is infinite or undefined. -/
def FiniteNumbers (v : Value) : Prop :=
  ∀ path x, Path.follow? path v = some (.float x) → x.isFinite = true

theorem FiniteNumbers.part {v x : Value} {path : Path} (h : v.FiniteNumbers)
    (hx : Path.follow? path v = some x) : x.FiniteNumbers := by
  intro rest y hy
  apply h (path ++ rest) y
  rw [Path.follow?_append, hx, Option.bind_some, hy]

theorem FiniteNumbers.of_atom {v : Value} (object : ∀ es, v ≠ .object es)
    (list : ∀ xs, v ≠ .list xs) (tuple : ∀ xs, v ≠ .tuple xs)
    (float : ∀ x, v = .float x → x.isFinite = true) : v.FiniteNumbers := by
  intro path x hx
  cases path with
  | nil => exact float x (Option.some.inj hx)
  | cons step rest => cases step <;> cases v <;> simp_all [Path.follow?]

theorem FiniteNumbers.of_entries {es : Entries Value} (h : ∀ e ∈ es, e.2.FiniteNumbers) :
    (Value.object es).FiniteNumbers := by
  intro path x hx
  cases path with
  | nil => simp at hx
  | cons step rest =>
    cases step with
    | index i => simp [Path.follow?] at hx
    | key k =>
      obtain ⟨y, hy, reached⟩ := Option.bind_eq_some_iff.mp hx
      exact h (k, y) (Entries.mem_of_find?_eq_some hy) rest x reached

/-- A decoded value with finite numbers has a literal. -/
theorem Decoded.hasLiteral {v : Value} (decoded : v.Decoded) (finite : v.FiniteNumbers) :
    v.HasLiteral := by
  obtain ⟨json, distinct⟩ := decoded
  induction json with
  | null => exact .null
  | bool b => exact .bool b
  | int n => exact .int n
  | float x => exact .float (finite [] x rfl)
  | str s => exact .str s
  | @list items _ ih =>
    refine .list fun x hx => ?_
    obtain ⟨i, hi⟩ := List.mem_iff_getElem?.mp hx
    have reached : Path.follow? [.index i] (.list items) = some x := by simp [hi]
    exact ih x hx (finite.part reached) (distinct.part reached)
  | object _ ih =>
    refine .object distinct.self fun e he => ?_
    have reached := distinct.follow?_entry he
    exact ih e he (finite.part reached) (distinct.part reached)

theorem toList_literalItems (items : List Value) : (literalItems items).toList =
    [',', ' '].intercalate (items.map fun x => x.literal.toList) := by
  match items with
  | [] => rfl
  | [x] => simp [literalItems]
  | x :: y :: rest =>
    have ih := toList_literalItems (y :: rest)
    simp only [literalItems, String.toList_append, ih, List.map_cons,
      List.intercalate_cons_cons]
    rfl

theorem toList_literalEntries (es : List (String × Value)) : (literalEntries es).toList =
    [',', ' '].intercalate (es.map fun e => (Text.quoted e.1 ++ ": " ++ e.2.literal).toList) := by
  match es with
  | [] => rfl
  | [(k, x)] => simp [literalEntries]
  | (k, x) :: y :: rest =>
    have ih := toList_literalEntries (y :: rest)
    simp only [literalEntries, String.toList_append, ih, List.map_cons,
      List.intercalate_cons_cons]
    rfl

theorem readsEntry {k : String} {t : String} {v : Value} (h : Reads t.toList v) :
    ReadsEntry (Text.quoted k ++ ": " ++ t).toList (k, v) := by
  refine ⟨t.toList, ?_, h⟩
  simp [Text.quoted]

/-- The literal of a value stands for the value. -/
theorem HasLiteral.reads {v : Value} (h : v.HasLiteral) : Reads v.literal.toList v := by
  induction h with
  | null => exact reads_null
  | bool b => exact reads_bool b
  | int n => exact reads_number (Json.readsAs_int n)
  | float finite => exact reads_number (Json.readsAs_render floatStyle finite)
  | str s => exact reads_quoted s
  | @list items _ ih =>
    have parts : List.Forall₂ Reads (items.map fun x => x.literal.toList) items :=
      List.forall₂_map_left_iff.mpr (List.forall₂_same.mpr ih)
    simpa [literal, toList_literalItems] using reads_list isGap_blank parts
  | @object es keys _ ih =>
    have parts : List.Forall₂ ReadsEntry
        (es.map fun e => (Text.quoted e.1 ++ ": " ++ e.2.literal).toList) es :=
      List.forall₂_map_left_iff.mpr (List.forall₂_same.mpr fun e he => readsEntry (ih e he))
    simpa [literal, toList_literalEntries] using reads_object isGap_blank keys parts

/-- The literal of a value is read as the value. -/
theorem HasLiteral.read?_literal {v : Value} (h : v.HasLiteral) :
    read? v.literal.toList = some v := by
  have reads := h.reads
  cases h with
  | str s => exact read?_quoted s
  | null => rfl
  | bool b => cases b <;> rfl
  | int n => exact read?_of_reads reads (bare_of_readsAs (Json.readsAs_int n))
  | float finite =>
    exact read?_of_reads reads (bare_of_readsAs (Json.readsAs_render floatStyle finite))
  | list | object =>
    refine read?_of_reads reads ?_
    rw [literal, String.toList_append, String.toList_append]
    rintro _ ⟨⟩
    decide

end Lexicon.Value
