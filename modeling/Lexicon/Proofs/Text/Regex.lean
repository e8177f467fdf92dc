import Lexicon.Text.Split
import Mathlib.Data.List.Forall2

/-!
# Regular expressions

What a regular expression says about a text, and how one is read from its own text. Read are
characters, escaped ones among them, the dot, the anchors, groups, alternatives and repetitions;
everything else is refused. Main statement: a text that is put together from readable texts is read
as the expression that is put together from theirs.
-/

namespace Lexicon

/-- What a text is matched with. -/
inductive Regex
  | empty
  | char (c : Char)
  | dot
  | start
  | finish
  | seq (r s : Regex)
  | choice (r s : Regex)
  | repeated (r : Regex)
  deriving DecidableEq, Repr, Inhabited

namespace Regex

/-! ### What an expression says -/

/-- An expression spans the middle part of a text: a dot any character but a newline, the start
nothing where nothing comes before, and the finish nothing where nothing comes after but a newline
at the end. -/
inductive Spans : Regex → List Char → List Char → List Char → Prop
  | empty {before after : List Char} : Spans .empty before [] after
  | char {c : Char} {before after : List Char} : Spans (.char c) before [c] after
  | dot {c : Char} {before after : List Char} (line : c ≠ '\n') : Spans .dot before [c] after
  | start {after : List Char} : Spans .start [] [] after
  | finish {before after : List Char} (last : after = [] ∨ after = ['\n']) :
      Spans .finish before [] after
  | seq {r s : Regex} {before a b after : List Char} (hr : Spans r before a (b ++ after))
      (hs : Spans s (before ++ a) b after) : Spans (.seq r s) before (a ++ b) after
  | left {r s : Regex} {before mid after : List Char} (h : Spans r before mid after) :
      Spans (.choice r s) before mid after
  | right {r s : Regex} {before mid after : List Char} (h : Spans s before mid after) :
      Spans (.choice r s) before mid after
  | once {r : Regex} {before mid after : List Char} (h : Spans r before mid after) :
      Spans (.repeated r) before mid after
  | again {r : Regex} {before a b after : List Char} (h : Spans r before a (b ++ after))
      (more : Spans (.repeated r) (before ++ a) b after) :
      Spans (.repeated r) before (a ++ b) after

/-- An expression matches a whole text. -/
def FullMatch (r : Regex) (cs : List Char) : Prop :=
  r.Spans [] cs []

section Spans

variable {r s : Regex} {c : Char} {before mid after : List Char}

@[simp] theorem spans_empty_iff : Spans .empty before mid after ↔ mid = [] :=
  ⟨fun h => by cases h; rfl, fun h => h ▸ .empty⟩

@[simp] theorem spans_char_iff : Spans (.char c) before mid after ↔ mid = [c] :=
  ⟨fun h => by cases h; rfl, fun h => h ▸ .char⟩

theorem spans_dot_iff : Spans .dot before mid after ↔ ∃ c, c ≠ '\n' ∧ mid = [c] :=
  ⟨fun h => by cases h with | dot line => exact ⟨_, line, rfl⟩, fun ⟨_, line, h⟩ => h ▸ .dot line⟩

@[simp] theorem spans_start_iff : Spans .start before mid after ↔ before = [] ∧ mid = [] :=
  ⟨fun h => by cases h; exact ⟨rfl, rfl⟩, fun ⟨first, h⟩ => first ▸ h ▸ .start⟩

@[simp] theorem spans_finish_iff :
    Spans .finish before mid after ↔ mid = [] ∧ (after = [] ∨ after = ['\n']) :=
  ⟨fun h => by cases h with | finish last => exact ⟨rfl, last⟩, fun ⟨h, last⟩ => h ▸ .finish last⟩

theorem spans_seq_iff :
    Spans (.seq r s) before mid after ↔
      ∃ a b, mid = a ++ b ∧ Spans r before a (b ++ after) ∧ Spans s (before ++ a) b after :=
  ⟨fun h => by cases h with | seq hr hs => exact ⟨_, _, rfl, hr, hs⟩,
    fun ⟨_, _, h, hr, hs⟩ => h ▸ .seq hr hs⟩

theorem spans_choice_iff :
    Spans (.choice r s) before mid after ↔ Spans r before mid after ∨ Spans s before mid after := by
  constructor
  · intro h
    cases h with
    | left h => exact .inl h
    | right h => exact .inr h
  · rintro (h | h)
    · exact .left h
    · exact .right h

/-- A repeated dot spans one or more characters of one line. -/
theorem spans_repeated_dot_iff :
    Spans (.repeated .dot) before mid after ↔ mid ≠ [] ∧ '\n' ∉ mid := by
  constructor
  · intro h
    generalize hr : Regex.repeated .dot = r at h
    induction h with
    | once h =>
      cases hr
      obtain ⟨c, line, rfl⟩ := spans_dot_iff.mp h
      simp [Ne.symm line]
    | again h _ _ ih =>
      cases hr
      obtain ⟨c, line, rfl⟩ := spans_dot_iff.mp h
      simp [Ne.symm line, (ih rfl).2]
    | _ => cases hr
  · rintro ⟨proper, line⟩
    induction mid generalizing before with
    | nil => exact absurd rfl proper
    | cons c rest ih =>
      rw [List.mem_cons, not_or] at line
      have first {after : List Char} : Spans .dot before [c] after := .dot (Ne.symm line.1)
      cases rest with
      | nil => exact .once first
      | cons d rest => exact .again first (ih (List.cons_ne_nil _ _) line.2)

end Spans

/-- One expression after the other. -/
def sequence : List Regex → Regex
  | [] => .empty
  | r :: rs => .seq r (sequence rs)

/-- Any of the expressions; the empty one where there are none. -/
def alternatives : List Regex → Regex
  | [] => .empty
  | [r] => r
  | r :: s :: rs => .choice r (alternatives (s :: rs))

theorem spans_alternatives_iff {rs : List Regex} (proper : rs ≠ []) {before mid after : List Char} :
    Spans (alternatives rs) before mid after ↔ ∃ r ∈ rs, Spans r before mid after := by
  induction rs with
  | nil => exact absurd rfl proper
  | cons r rs ih =>
    cases rs with
    | nil => simp [alternatives]
    | cons s rs =>
      rw [alternatives, spans_choice_iff, ih (List.cons_ne_nil _ _)]
      simp only [List.mem_cons, exists_eq_or_imp]

/-- Between the two anchors an expression matches what it matches alone. -/
theorem fullMatch_anchored_iff {r : Regex} {cs : List Char} :
    (sequence [.start, r, .finish]).FullMatch cs ↔ r.FullMatch cs := by
  constructor
  · intro h
    simp only [FullMatch, sequence, spans_seq_iff, spans_start_iff, spans_finish_iff,
      spans_empty_iff] at h
    obtain ⟨_, _, rfl, ⟨-, rfl⟩, _, _, rfl, h, _, _, rfl, ⟨rfl, -⟩, rfl⟩ := h
    simpa [FullMatch] using h
  · intro h
    have last : Spans (sequence [.finish]) cs [] [] :=
      spans_seq_iff.mpr ⟨[], [], rfl, .finish (.inl rfl), .empty⟩
    have rest : Spans (sequence [r, .finish]) [] cs [] :=
      spans_seq_iff.mpr ⟨cs, [], (List.append_nil cs).symm, h, last⟩
    exact spans_seq_iff.mpr ⟨[], cs, rfl, .start, rest⟩

/-! ### Reading -/

/-- What the text of an expression consists of. -/
inductive Token
  | char (c : Char)
  | dot | start | finish | bar | plus | opened | closed
  deriving DecidableEq, Repr, Inhabited

/-- What a character that is not escaped stands for. -/
def Token.ofChar? : Char → Option Token
  | '.' => some .dot
  | '^' => some .start
  | '$' => some .finish
  | '|' => some .bar
  | '+' => some .plus
  | ')' => some .closed
  | '(' | '[' | '{' | '*' | '?' | '\\' => none
  | c => some (.char c)

/-- The tokens of a text. An escaped character stands for itself unless it is a letter or a
digit. -/
def tokens : List Char → Option (List Token)
  | [] => some []
  | '\\' :: c :: cs => if c.isAlphanum then none else (tokens cs).map (.char c :: ·)
  | '(' :: '?' :: ':' :: cs => (tokens cs).map (.opened :: ·)
  | c :: cs => (Token.ofChar? c).bind fun t => (tokens cs).map (t :: ·)

/-- A group that is not closed yet: its alternatives so far and the parts of the last one, both from
the last to the first. -/
structure Frame where
  done : List Regex := []
  parts : List Regex := []

namespace Frame

/-- One part more. -/
def push (f : Frame) (r : Regex) : Frame :=
  { f with parts := r :: f.parts }

/-- The beginning of the next alternative. -/
def bar (f : Frame) : Frame :=
  ⟨sequence f.parts.reverse :: f.done, []⟩

/-- What a group stands for. -/
def close (f : Frame) : Regex :=
  alternatives f.bar.done.reverse

/-- The last part repeated, where it is one that can be. -/
def repeatLast? (f : Frame) : Option Frame :=
  match f.parts with
  | [] | .start :: _ | .finish :: _ | .repeated _ :: _ => none
  | r :: rs => some { f with parts := .repeated r :: rs }

end Frame

/-- The expression of the tokens that follow an open group inside others. -/
def parse : List Frame → Frame → List Token → Option Regex
  | [], f, [] => some f.close
  | _ :: _, _, [] => none
  | outer, f, .char c :: ts => parse outer (f.push (.char c)) ts
  | outer, f, .dot :: ts => parse outer (f.push .dot) ts
  | outer, f, .start :: ts => parse outer (f.push .start) ts
  | outer, f, .finish :: ts => parse outer (f.push .finish) ts
  | outer, f, .bar :: ts => parse outer f.bar ts
  | outer, f, .plus :: ts => f.repeatLast?.bind fun f => parse outer f ts
  | outer, f, .opened :: ts => parse (f :: outer) {} ts
  | [], _, .closed :: _ => none
  | g :: outer, f, .closed :: ts => parse outer (g.push f.close) ts

/-- The expression that a text says. -/
def read (text : List Char) : Option Regex :=
  (tokens text).bind (parse [] {})

/-! ### Texts that are put together -/

/-- Wherever a text stands and whatever follows it, reading it changes the open group so. -/
def Builds (cs : List Char) (step : Frame → Frame) : Prop :=
  ∀ outer f rest,
    (tokens (cs ++ rest)).bind (parse outer f) = (tokens rest).bind (parse outer (step f))

section Builds

variable {cs cs' : List Char} {step step' : Frame → Frame} {c : Char}

theorem Builds.nil : Builds [] id := fun _ _ _ => rfl

theorem Builds.append (h : Builds cs step) (h' : Builds cs' step') :
    Builds (cs ++ cs') (step' ∘ step) := by
  intro outer f rest
  rw [List.append_assoc, h outer f, h' outer (step f), Function.comp_apply]

theorem Builds.read_eq (h : Builds cs step) : read cs = some (step {}).close := by
  have := h [] {} []
  rw [List.append_nil] at this
  rw [read, this]
  rfl

/-- The first token is parsed before the others. -/
theorem bind_parse_map {outer outer' : List Frame} {f f' : Frame} {t : Token}
    (h : ∀ ts, parse outer f (t :: ts) = parse outer' f' ts) (rest : List Char) :
    ((tokens rest).map (t :: ·)).bind (parse outer f) = (tokens rest).bind (parse outer' f') := by
  rw [Option.bind_map]
  exact congrArg (tokens rest).bind (funext h)

theorem builds_escaped (h : c.isAlphanum = false) : Builds ['\\', c] (·.push (.char c)) := by
  intro outer f rest
  have first : tokens ('\\' :: c :: rest) = (tokens rest).map (.char c :: ·) := by
    simp [tokens, h]
  rw [List.cons_append, List.cons_append, List.nil_append, first]
  exact bind_parse_map (fun _ => by rw [parse]) rest

/-- A character that is not escaped and stands for a token. -/
theorem tokens_cons {t : Token} (h : Token.ofChar? c = some t) (rest : List Char) :
    tokens (c :: rest) = (tokens rest).map (t :: ·) := by
  rw [tokens.eq_def]
  split
  · next eq => cases eq
  · next eq =>
    cases eq
    cases h
  · next eq =>
    cases eq
    cases h
  · next eq =>
    cases eq
    rw [h, Option.bind_some]

/-- A character that is not escaped does what its token does. -/
theorem builds_of_parse {t : Token} (h : Token.ofChar? c = some t)
    (hstep : ∀ outer f ts, parse outer f (t :: ts) = parse outer (step f) ts) :
    Builds [c] step := by
  intro outer f rest
  rw [List.cons_append, List.nil_append, tokens_cons h]
  exact bind_parse_map (hstep outer f) rest

theorem builds_char (h : Token.ofChar? c = some (.char c)) : Builds [c] (·.push (.char c)) :=
  builds_of_parse h fun _ _ _ => by rw [parse]

theorem builds_bar : Builds ['|'] Frame.bar :=
  builds_of_parse rfl fun _ _ _ => by rw [parse]

theorem builds_start : Builds ['^'] (·.push .start) :=
  builds_of_parse rfl fun _ _ _ => by rw [parse]

theorem builds_finish : Builds ['$'] (·.push .finish) :=
  builds_of_parse rfl fun _ _ _ => by rw [parse]

theorem builds_repeated_dot : Builds ['.', '+'] (·.push (.repeated .dot)) := by
  intro outer f rest
  rw [List.cons_append, List.cons_append, List.nil_append, tokens_cons (c := '.') rfl,
    bind_parse_map (fun _ => by rw [parse]), tokens_cons (c := '+') rfl]
  refine bind_parse_map (fun _ => ?_) rest
  rw [parse]
  rfl

/-- A text in brackets is one part. -/
theorem Builds.group (h : Builds cs step) :
    Builds (['(', '?', ':'] ++ cs ++ [')']) (·.push (step {}).close) := by
  intro outer f rest
  have opened (rest : List Char) : (tokens ('(' :: '?' :: ':' :: rest)).bind (parse outer f) =
      (tokens rest).bind (parse (f :: outer) {}) := by
    rw [tokens]
    exact bind_parse_map (fun _ => by rw [parse]) rest
  have inside := h (f :: outer) {} (')' :: rest)
  simp only [List.cons_append, List.nil_append, List.append_assoc]
  rw [opened, inside, tokens_cons (c := ')') rfl]
  exact bind_parse_map (fun _ => by rw [parse]) rest

end Builds

namespace Frame

/-- More parts of the last alternative. -/
def append (f : Frame) (rs : List Regex) : Frame :=
  { f with parts := rs.reverse ++ f.parts }

/-- The parts of more alternatives. -/
def enter (f : Frame) : List (List Regex) → Frame
  | [] => f
  | [rs] => f.append rs
  | rs :: next :: more => (f.append rs).bar.enter (next :: more)

theorem done_bar_enter {rss : List (List Regex)} (proper : rss ≠ []) (done : List Regex) :
    (enter ⟨done, []⟩ rss).bar.done = (rss.map sequence).reverse ++ done := by
  induction rss generalizing done with
  | nil => exact absurd rfl proper
  | cons rs rss ih =>
    cases rss with
    | nil => simp [enter, append, bar]
    | cons next more =>
      rw [enter, show (append ⟨done, []⟩ rs).bar = ⟨sequence rs :: done, []⟩ by simp [append, bar],
        ih (List.cons_ne_nil _ _)]
      simp

/-- A group stands for its alternatives. -/
theorem close_enter {rss : List (List Regex)} (proper : rss ≠ []) :
    (enter {} rss).close = alternatives (rss.map sequence) := by
  rw [close, done_bar_enter proper, List.append_nil, List.reverse_reverse]

end Frame

/-- Texts with bars between them are alternatives. -/
theorem Builds.joined {pieces : List (List Char)} {rss : List (List Regex)}
    (h : List.Forall₂ (fun cs rs => Builds cs (·.append rs)) pieces rss) :
    Builds (Text.joinWith ['|'] pieces) (·.enter rss) := by
  induction h with
  | nil => exact .nil
  | @cons cs rs pieces rss first rest ih =>
    cases rest with
    | nil => exact first
    | cons => exact (first.append builds_bar).append ih

end Regex

end Lexicon
