import Lexicon.Identifier.Did
import Lexicon.Identifier.Label
import Lexicon.Identifier.RecordKey
import Lexicon.Proofs.Outcome
import Mathlib.Computability.Language

/-!
# Patterns of identifiers

The patterns of labels, host names, namespaced identifiers, decentralized identifiers and record
keys, as languages put together from single characters by sequence, choice and repetition. Main
statements: for each pattern, what decides whether a text is in it.
-/

open scoped Computability

namespace Lexicon

/-- A text that comes apart consists of its method and body, after `did:`. -/
theorem Did.eq_append_of_parts? {w method body : List Char} (h : parts? w = some (method, body)) :
    w = "did:".toList ++ (method ++ ':' :: body) := by
  unfold parts? at h
  cases found : Text.after? ['d', 'i', 'd', ':'] w with
  | none => simp [found] at h
  | some rest =>
    rcases cut : Text.cutAt ':' rest with ⟨first, _ | second⟩
    · simp [found, cut] at h
    · simp only [found, cut, Option.some.injEq, Prod.mk.injEq] at h
      obtain ⟨rfl, rfl⟩ := h
      rw [Text.eq_append_of_after? found, Text.eq_append_of_cutAt cut]
      rfl

/-- A method without a colon is found in front of any body. -/
theorem Did.parts?_append {method : List Char} (h : ':' ∉ method) (body : List Char) :
    parts? ("did:".toList ++ (method ++ ':' :: body)) = some (method, body) := by
  have found : Text.after? ['d', 'i', 'd', ':'] ("did:".toList ++ (method ++ ':' :: body)) =
      some (method ++ ':' :: body) := Text.after?_append _ _
  rw [parts?, found]
  simp only [Text.cutAt_append h]

namespace Pattern

/-! ### Building patterns -/

/-- One character of a class. -/
def oneOf (p : Char → Bool) : Language Char :=
  {w | ∃ c, p c = true ∧ w = [c]}

/-- A fixed text. -/
def exactly (text : List Char) : Language Char :=
  {text}

/-- What the pattern stands for, or nothing. -/
def optional (l : Language Char) : Language Char :=
  1 + l

/-- From `least` to `most` times the pattern. -/
def times (least most : Nat) (l : Language Char) : Language Char :=
  {w | ∃ k, least ≤ k ∧ k ≤ most ∧ w ∈ l ^ k}

/-- The pattern once or more often. -/
def repeated (l : Language Char) : Language Char :=
  l * l∗

variable {l : Language Char} {p : Char → Bool} {w text : List Char}

theorem mem_exactly_iff : w ∈ exactly text ↔ w = text :=
  Iff.rfl

theorem mem_optional_iff : w ∈ optional l ↔ w = [] ∨ w ∈ l :=
  Iff.rfl

theorem mem_repeated_iff :
    w ∈ repeated l ↔ ∃ parts : List (List Char), parts ≠ [] ∧ (∀ part ∈ parts, part ∈ l) ∧
      w = parts.flatten := by
  rw [repeated, Language.mem_mul]
  constructor
  · rintro ⟨first, hfirst, rest, hrest, rfl⟩
    obtain ⟨parts, rfl, hparts⟩ := Language.mem_kstar.mp hrest
    exact ⟨first :: parts, List.cons_ne_nil _ _, List.forall_mem_cons.mpr ⟨hfirst, hparts⟩, rfl⟩
  · rintro ⟨parts, nonempty, hparts, rfl⟩
    cases parts with
    | nil => exact absurd rfl nonempty
    | cons first parts =>
      obtain ⟨hfirst, hparts⟩ := List.forall_mem_cons.mp hparts
      exact ⟨first, hfirst, parts.flatten, Language.join_mem_kstar hparts, rfl⟩

theorem mem_pow_oneOf_iff {k : Nat} : w ∈ oneOf p ^ k ↔ w.length = k ∧ w.all p = true := by
  induction k generalizing w with
  | zero =>
    rw [pow_zero, Language.mem_one, List.length_eq_zero_iff]
    constructor
    · rintro rfl
      exact ⟨rfl, rfl⟩
    · exact And.left
  | succ k ih =>
    rw [pow_succ', Language.mem_mul]
    constructor
    · rintro ⟨_, ⟨c, hc, rfl⟩, rest, hrest, rfl⟩
      obtain ⟨rfl, all⟩ := ih.mp hrest
      simp [hc, all]
    · rintro ⟨length, all⟩
      obtain ⟨c, rest, rfl⟩ := List.exists_cons_of_length_eq_add_one length
      rw [List.all_cons, Bool.and_eq_true] at all
      rw [List.length_cons, Nat.add_right_cancel_iff] at length
      exact ⟨[c], ⟨c, all.1, rfl⟩, rest, ih.mpr ⟨length, all.2⟩, rfl⟩

theorem mem_times_oneOf_iff {least most : Nat} :
    w ∈ times least most (oneOf p) ↔ least ≤ w.length ∧ w.length ≤ most ∧ w.all p = true := by
  constructor
  · rintro ⟨k, hleast, hmost, h⟩
    obtain ⟨rfl, all⟩ := mem_pow_oneOf_iff.mp h
    exact ⟨hleast, hmost, all⟩
  · rintro ⟨hleast, hmost, all⟩
    exact ⟨w.length, hleast, hmost, mem_pow_oneOf_iff.mpr ⟨rfl, all⟩⟩

theorem mem_kstar_oneOf_iff : w ∈ (oneOf p)∗ ↔ w.all p = true := by
  rw [Language.kstar_eq_iSup_pow, Language.mem_iSup]
  simp only [mem_pow_oneOf_iff, exists_eq_left']

/-! ### The patterns -/

/-- A first character of the given class, and up to 62 letters, digits and hyphens of which the last
is no hyphen. -/
def labelFrom (first : Char → Bool) : Language Char :=
  oneOf first * optional (times 0 61 (oneOf Label.isLabelChar) * oneOf Char.isAlphanum)

/-- One to 63 letters, digits and hyphens with no hyphen at either end. -/
def label : Language Char :=
  labelFrom Char.isAlphanum

/-- A label that starts with a letter. -/
def letterLabel : Language Char :=
  labelFrom Char.isAlpha

/-- A letter and up to 62 letters and digits. -/
def name : Language Char :=
  oneOf Char.isAlpha * optional (times 0 62 (oneOf Char.isAlphanum))

/-- Labels, each with a dot after it, and a last one that starts with a letter. -/
def host : Language Char :=
  repeated (label * exactly ['.']) * letterLabel

/-- A label that starts with a letter, labels with a dot before each of them, and a name with a dot
before it. -/
def namespaced : Language Char :=
  letterLabel * repeated (exactly ['.'] * label) * (exactly ['.'] * name)

/-- `did:`, a method in use, a colon, and characters of which the last is neither a colon nor a
percent sign. -/
def blessedDid : Language Char :=
  exactly "did:".toList * (exactly "plc".toList + exactly "web".toList) * exactly [':'] *
    (oneOf Did.isBodyChar)∗ * oneOf Did.isFinalChar

/-- One to 512 of the characters of record keys. -/
def recordKey : Language Char :=
  times 1 512 (oneOf RecordKey.isKeyChar)

/-! ### Labels -/

theorem isAlphanum_of_isAlpha {c : Char} (h : c.isAlpha = true) : c.isAlphanum = true := by
  rw [Char.isAlphanum, h, Bool.true_or]

theorem isLabelChar_of_isAlphanum {c : Char} (h : c.isAlphanum = true) :
    Label.isLabelChar c = true := by
  rw [Label.isLabelChar, h, Bool.true_or]

theorem isLabel_singleton_iff {c : Char} : Label.isLabel [c] = true ↔ c.isAlphanum = true := by
  simp only [Label.isLabel, List.length_singleton, List.all_cons, List.all_nil, List.head?_cons,
    List.getLast?_singleton, Option.any_some, Bool.and_eq_true, decide_eq_true_eq]
  exact ⟨And.right, fun h => ⟨⟨⟨by decide, isLabelChar_of_isAlphanum h, trivial⟩, h⟩, h⟩⟩

theorem isLabel_framed_iff {c d : Char} {middle : List Char} :
    Label.isLabel (c :: (middle ++ [d])) = true ↔ c.isAlphanum = true ∧ middle.length ≤ 61 ∧
      middle.all Label.isLabelChar = true ∧ d.isAlphanum = true := by
  have last : (c :: (middle ++ [d])).getLast? = some d := by
    rw [← List.cons_append, List.getLast?_concat]
  have length : (c :: (middle ++ [d])).length = middle.length + 2 := by simp
  rw [Label.isLabel, last, length]
  simp only [List.all_cons, List.all_append, List.all_nil, List.head?_cons, Option.any_some,
    Bool.and_eq_true, decide_eq_true_eq]
  constructor
  · rintro ⟨⟨⟨short, -, all, -⟩, hc⟩, hd⟩
    exact ⟨hc, by omega, all, hd⟩
  · rintro ⟨hc, short, all, hd⟩
    exact ⟨⟨⟨by omega, isLabelChar_of_isAlphanum hc, all, isLabelChar_of_isAlphanum hd, trivial⟩,
      hc⟩, hd⟩

theorem mem_labelFrom_iff {first : Char → Bool} (h : ∀ c, first c = true → c.isAlphanum = true) :
    w ∈ labelFrom first ↔ Label.isLabel w = true ∧ w.head?.any first = true := by
  rw [labelFrom, Language.mem_mul]
  constructor
  · rintro ⟨_, ⟨c, hc, rfl⟩, rest, hrest, rfl⟩
    refine ⟨?_, by simpa using hc⟩
    rcases mem_optional_iff.mp hrest with rfl | hrest
    · exact isLabel_singleton_iff.mpr (h c hc)
    · obtain ⟨middle, hmiddle, _, ⟨d, hd, rfl⟩, rfl⟩ := Language.mem_mul.mp hrest
      obtain ⟨-, length, all⟩ := mem_times_oneOf_iff.mp hmiddle
      exact isLabel_framed_iff.mpr ⟨h c hc, length, all, hd⟩
  · rintro ⟨isLabel, hfirst⟩
    cases w with
    | nil => simp at hfirst
    | cons c rest =>
      refine ⟨[c], ⟨c, by simpa using hfirst, rfl⟩, rest, mem_optional_iff.mpr ?_, rfl⟩
      rcases List.eq_nil_or_concat' rest with rfl | ⟨middle, d, rfl⟩
      · exact .inl rfl
      · obtain ⟨-, length, all, hd⟩ := isLabel_framed_iff.mp isLabel
        right
        exact ⟨middle, mem_times_oneOf_iff.mpr ⟨Nat.zero_le _, length, all⟩, [d], ⟨d, hd, rfl⟩, rfl⟩

theorem mem_label_iff : w ∈ label ↔ Label.isLabel w = true := by
  rw [label, mem_labelFrom_iff fun _ => id]
  simp only [Label.isLabel, Bool.and_eq_true]
  tauto

theorem mem_letterLabel_iff : w ∈ letterLabel ↔ Label.isLetterLabel w = true := by
  rw [letterLabel, mem_labelFrom_iff fun _ => isAlphanum_of_isAlpha, Label.isLetterLabel,
    Bool.and_eq_true]

/-- A letter and up to 62 characters of a class that holds the letters. -/
theorem mem_letterThen_iff (h : ∀ c, c.isAlpha = true → p c = true) :
    w ∈ oneOf Char.isAlpha * optional (times 0 62 (oneOf p)) ↔
      w.length ≤ 63 ∧ w.all p = true ∧ w.head?.any Char.isAlpha = true := by
  rw [Language.mem_mul]
  constructor
  · rintro ⟨_, ⟨c, hc, rfl⟩, rest, hrest, rfl⟩
    have first := h c hc
    rcases mem_optional_iff.mp hrest with rfl | hrest
    · simp [first, hc]
    · obtain ⟨-, length, all⟩ := mem_times_oneOf_iff.mp hrest
      refine ⟨by simp; omega, ?_, by simpa using hc⟩
      rw [List.singleton_append, List.all_cons, first, all, Bool.true_and]
  · rintro ⟨length, all, first⟩
    cases w with
    | nil => simp at first
    | cons c rest =>
      rw [List.all_cons, Bool.and_eq_true] at all
      rw [List.length_cons] at length
      refine ⟨[c], ⟨c, by simpa using first, rfl⟩, rest, mem_optional_iff.mpr (.inr ?_), rfl⟩
      exact mem_times_oneOf_iff.mpr ⟨Nat.zero_le _, by omega, all.2⟩

theorem mem_name_iff : w ∈ name ↔ Label.isName w = true := by
  rw [name, mem_letterThen_iff fun _ => isAlphanum_of_isAlpha, Label.isName, Bool.and_eq_true,
    Bool.and_eq_true, decide_eq_true_eq, and_assoc]

/-! ### Host names and namespaced identifiers -/

/-- No label holds a dot. -/
theorem dot_notMem_of_isLabel (h : Label.isLabel w = true) : '.' ∉ w := by
  intro hdot
  simp only [Label.isLabel, Bool.and_eq_true, List.all_eq_true] at h
  exact absurd (h.1.1.2 _ hdot) (by decide)

theorem dot_notMem_of_isName (h : Label.isName w = true) : '.' ∉ w := by
  intro hdot
  simp only [Label.isName, Bool.and_eq_true, List.all_eq_true] at h
  exact absurd (h.1.2 _ hdot) (by decide)

theorem isHost_iff : Label.isHost w = true ↔ ∃ labels last, labels ≠ [] ∧
    Text.splitOn '.' w = labels ++ [last] ∧ (∀ x ∈ labels, Label.isLabel x = true) ∧
      Label.isLetterLabel last = true := by
  unfold Label.isHost
  rcases List.eq_nil_or_concat' (Text.splitOn '.' w) with none | ⟨labels, last, split⟩
  · exact absurd none (Text.splitOn_ne_nil _ _)
  · rw [split, List.reverse_append, List.reverse_singleton, List.singleton_append]
    constructor
    · intro h
      split at h
      · next last' first more heq =>
        obtain ⟨rfl, reversed⟩ := List.cons.inj heq
        rw [Bool.and_eq_true, ← reversed, List.all_reverse, List.all_eq_true] at h
        refine ⟨labels, last, ?_, rfl, h.2, h.1⟩
        rintro rfl
        cases reversed
      · cases h
    · rintro ⟨labels', last', nonempty, same, isLabel, isLetterLabel⟩
      obtain ⟨rfl, rfl⟩ := List.append_singleton_inj.mp same
      cases reversed : labels.reverse with
      | nil => exact absurd (List.reverse_eq_nil_iff.mp reversed) nonempty
      | cons first more =>
        dsimp only
        rw [← reversed, List.all_reverse, Bool.and_eq_true, List.all_eq_true]
        exact ⟨isLetterLabel, isLabel⟩

theorem isNamespaced_iff : Label.isNamespaced w = true ↔ ∃ first labels last, labels ≠ [] ∧
    Text.splitOn '.' w = first :: (labels ++ [last]) ∧ Label.isLetterLabel first = true ∧
      (∀ x ∈ labels, Label.isLabel x = true) ∧ Label.isName last = true := by
  unfold Label.isNamespaced
  constructor
  · intro h
    split at h
    · next first second third more split =>
      rw [Bool.and_eq_true, Bool.and_eq_true, List.all_eq_true] at h
      obtain ⟨⟨hfirst, hlabels⟩, hlast⟩ := h
      refine ⟨first, (second :: third :: more).dropLast, _, by simp, ?_, hfirst, hlabels, hlast⟩
      rw [split, ← List.getLast_cons (a := second) (by simp), List.dropLast_append_getLast]
    · cases h
  · rintro ⟨first, labels, last, nonempty, split, hfirst, hlabels, hlast⟩
    obtain ⟨second, labels, rfl⟩ := List.exists_cons_of_ne_nil nonempty
    obtain ⟨third, more, tail⟩ : ∃ third more, labels ++ [last] = third :: more :=
      List.exists_cons_of_ne_nil (by simp)
    have whole : second :: third :: more = (second :: labels) ++ [last] := by
      rw [List.cons_append, tail]
    rw [split, List.cons_append, tail]
    dsimp only
    rw [whole, List.dropLast_concat]
    have final : (third :: more).getLast (by simp) = last := by
      simp only [← tail, List.getLast_append_singleton]
    rw [final, Bool.and_eq_true, Bool.and_eq_true, List.all_eq_true]
    exact ⟨⟨hfirst, hlabels⟩, hlast⟩

/-- What is repeated where every single one is made of a part. -/
theorem mem_repeated_of_map {m : Language Char} {f : List Char → List Char}
    (h : ∀ x, x ∈ l ↔ ∃ part ∈ m, f part = x) :
    w ∈ repeated l ↔ ∃ parts : List (List Char), parts ≠ [] ∧ (∀ part ∈ parts, part ∈ m) ∧
      (parts.map f).flatten = w := by
  rw [mem_repeated_iff]
  constructor
  · rintro ⟨texts, nonempty, htexts, rfl⟩
    obtain ⟨parts, hparts⟩ := List.exists_forall₂ fun x hx => (h x).mp (htexts x hx)
    have made : parts.map f = texts := by
      rw [← List.forall₂_eq_eq_eq, List.forall₂_map_left_iff]
      exact hparts.flip.imp fun _ _ hx => hx.2
    refine ⟨parts, ?_, ?_, by rw [made]⟩
    · rintro rfl
      exact nonempty made.symm
    · intro part hpart
      obtain ⟨_, -, hx⟩ := hparts.exists_left hpart
      exact hx.1
  · rintro ⟨parts, nonempty, hparts, rfl⟩
    refine ⟨parts.map f, by simpa using nonempty, List.forall_mem_map.mpr ?_, rfl⟩
    exact fun part hpart => (h _).mpr ⟨part, hparts part hpart, rfl⟩

/-- Parts with a separator after each, and a last one, are the parts joined. -/
theorem flatten_append_eq_joinWith (sep : Char) (parts : List (List Char)) (last : List Char) :
    (parts.map (· ++ [sep])).flatten ++ last = Text.joinWith [sep] (parts ++ [last]) := by
  induction parts with
  | nil => simp [Text.joinWith]
  | cons part parts ih =>
    rw [List.map_cons, List.flatten_cons, List.append_assoc, ih, List.cons_append]
    cases parts <;> simp [Text.joinWith]

theorem mem_host_iff : w ∈ host ↔ Label.isHost w = true := by
  have dotted (x : List Char) : x ∈ label * exactly ['.'] ↔ ∃ part ∈ label, part ++ ['.'] = x := by
    simp [Language.mem_mul, mem_exactly_iff]
  rw [isHost_iff, host, Language.mem_mul]
  simp only [mem_repeated_of_map dotted, mem_label_iff, mem_letterLabel_iff]
  constructor
  · rintro ⟨_, ⟨labels, nonempty, hlabels, rfl⟩, last, hlast, rfl⟩
    refine ⟨labels, last, nonempty, ?_, hlabels, hlast⟩
    rw [flatten_append_eq_joinWith]
    apply Text.splitOn_joinWith (by simp)
    rw [Label.isLetterLabel, Bool.and_eq_true] at hlast
    exact List.forall_mem_append.mpr ⟨fun x hx => dot_notMem_of_isLabel (hlabels x hx),
      List.forall_mem_singleton.mpr (dot_notMem_of_isLabel hlast.1)⟩
  · rintro ⟨labels, last, nonempty, split, hlabels, hlast⟩
    refine ⟨_, ⟨labels, nonempty, hlabels, rfl⟩, last, hlast, ?_⟩
    rw [flatten_append_eq_joinWith, ← split, Text.joinWith_splitOn]

theorem mem_namespaced_iff : w ∈ namespaced ↔ Label.isNamespaced w = true := by
  have dotted {m : Language Char} (x : List Char) :
      x ∈ exactly ['.'] * m ↔ ∃ part ∈ m, ['.'] ++ part = x := by
    simp [Language.mem_mul, mem_exactly_iff]
  have joined (first last : List Char) (labels : List (List Char)) :
      first ++ (labels.map (['.'] ++ ·)).flatten ++ (['.'] ++ last) =
        Text.joinWith ['.'] (first :: (labels ++ [last])) := by
    simp [Text.joinWith_cons]
  rw [isNamespaced_iff, namespaced, Language.mem_mul]
  simp only [Language.mem_mul (l := letterLabel), mem_repeated_of_map dotted, dotted, mem_label_iff,
    mem_letterLabel_iff, mem_name_iff]
  constructor
  · rintro ⟨_, ⟨first, hfirst, _, ⟨labels, nonempty, hlabels, rfl⟩, rfl⟩,
      _, ⟨last, hlast, rfl⟩, rfl⟩
    refine ⟨first, labels, last, nonempty, ?_, hfirst, hlabels, hlast⟩
    rw [joined]
    apply Text.splitOn_joinWith (by simp)
    rw [Label.isLetterLabel, Bool.and_eq_true] at hfirst
    refine List.forall_mem_cons.mpr ⟨dot_notMem_of_isLabel hfirst.1, ?_⟩
    exact List.forall_mem_append.mpr ⟨fun x hx => dot_notMem_of_isLabel (hlabels x hx),
      List.forall_mem_singleton.mpr (dot_notMem_of_isName hlast)⟩
  · rintro ⟨first, labels, last, nonempty, split, hfirst, hlabels, hlast⟩
    refine ⟨_, ⟨first, hfirst, _, ⟨labels, nonempty, hlabels, rfl⟩, rfl⟩, _, ⟨last, hlast, rfl⟩, ?_⟩
    rw [joined, ← split, Text.joinWith_splitOn]

/-! ### Decentralized identifiers and record keys -/

theorem isBodyChar_of_isFinalChar {c : Char} (h : Did.isFinalChar c = true) :
    Did.isBodyChar c = true := by
  simp only [Did.isFinalChar, Did.isBodyChar, Bool.or_eq_true] at h ⊢
  tauto

theorem mem_body_iff :
    w ∈ (oneOf Did.isBodyChar)∗ * oneOf Did.isFinalChar ↔ Did.isBody w = true := by
  rw [Language.mem_mul, Did.isBody, Bool.and_eq_true]
  simp only [mem_kstar_oneOf_iff]
  constructor
  · rintro ⟨front, all, _, ⟨c, hc, rfl⟩, rfl⟩
    rw [List.getLast?_concat, List.all_append, Bool.and_eq_true]
    exact ⟨⟨all, by simpa using isBodyChar_of_isFinalChar hc⟩, hc⟩
  · rintro ⟨all, last⟩
    rcases List.eq_nil_or_concat' w with rfl | ⟨front, c, rfl⟩
    · simp at last
    · rw [List.getLast?_concat] at last
      rw [List.all_append, Bool.and_eq_true] at all
      exact ⟨front, all.1, [c], ⟨c, last, rfl⟩, rfl⟩

theorem isBlessedDid_iff : Did.isBlessedDid w = true ↔ ∃ method body,
    w = "did:".toList ++ (method ++ ':' :: body) ∧ (method = "plc".toList ∨ method = "web".toList) ∧
      Did.isBody body = true := by
  have blessed {method : List Char} : Did.isBlessedMethod method = true ↔
      method = "plc".toList ∨ method = "web".toList := by
    simp [Did.isBlessedMethod]
  constructor
  · intro h
    unfold Did.isBlessedDid at h
    cases found : Did.parts? w with
    | none => simp [found] at h
    | some parts =>
      simp only [found, Bool.and_eq_true] at h
      exact ⟨_, _, Did.eq_append_of_parts? found, blessed.mp h.1, h.2⟩
  · rintro ⟨method, body, rfl, isBlessed, isBody⟩
    have colon : ':' ∉ method := by
      rcases isBlessed with rfl | rfl <;> decide
    rw [Did.isBlessedDid, Did.parts?_append colon, Bool.and_eq_true]
    exact ⟨blessed.mpr isBlessed, isBody⟩

theorem mem_blessedDid_iff : w ∈ blessedDid ↔ Did.isBlessedDid w = true := by
  rw [isBlessedDid_iff, blessedDid, mul_assoc, mul_assoc, mul_assoc]
  simp only [Language.mem_mul (l := exactly _), mem_exactly_iff, exists_eq_left,
    Language.mem_mul (l := exactly _ + exactly _), mem_body_iff, Language.mem_add]
  constructor
  · rintro ⟨_, ⟨method, isBlessed, _, ⟨body, isBody, rfl⟩, rfl⟩, rfl⟩
    exact ⟨method, body, rfl, isBlessed, isBody⟩
  · rintro ⟨method, body, rfl, isBlessed, isBody⟩
    exact ⟨_, ⟨method, isBlessed, _, ⟨body, isBody, rfl⟩, rfl⟩, rfl⟩

theorem mem_recordKey_iff : w ∈ recordKey ↔ RecordKey.isKeyText w = true := by
  rw [recordKey, mem_times_oneOf_iff, RecordKey.isKeyText]
  cases w <;> simp

end Pattern

end Lexicon
