import Mathlib.Data.List.Basic
import Mathlib.Tactic.IntervalCases
import Mathlib.Tactic.NormNum
import Mathlib.Tactic.Ring
import Lexicon.Json.Reader
import Lexicon.Text.Quoted

/-!
# Quoted text is read as what was quoted

Between two quotes, a backslash and a letter stand for a character, by name or by the hexadecimal
digits of its code. Main statement: what is written between quotes is read as the text that was
written, and reading stops after the closing quote.
-/

namespace Lexicon.Text.Quoted

/-! ### Reading -/

/-- The number that hexadecimal digits stand for. -/
def hexNumber? (cs : List Char) : Option ℕ :=
  cs.foldlM (fun n c => (Json.hexValue? c).map (16 * n + ·)) 0

/-- The character whose code has the given count of hexadecimal digits, and what follows them. -/
def coded? (width : ℕ) (cs : List Char) : Option (Char × List Char) := do
  let n ← hexNumber? (cs.take width)
  if width ≤ cs.length ∧ n.isValidChar then some (Char.ofNat n, cs.drop width) else none

/-- The character that a letter after a backslash names. -/
def named? : Char → Option Char
  | '\\' => some '\\'
  | '\'' => some '\''
  | '"' => some '"'
  | 'n' => some '\n'
  | 'r' => some '\r'
  | 't' => some '\t'
  | _ => none

/-- The character that stands after a backslash, and what follows it. -/
def escaped? : List Char → Option (Char × List Char)
  | [] => none
  | c :: rest =>
    if c = 'x' then coded? 2 rest
    else if c = 'u' then coded? 4 rest
    else if c = 'U' then coded? 8 rest
    else (named? c).map (·, rest)

/-- The characters up to the closing quote, and what follows it. Control characters stand in escapes
only. The second argument bounds the number of characters. -/
def characters? (quote : Char) : ℕ → List Char → Option (List Char × List Char)
  | 0, _ => none
  | _ + 1, [] => none
  | fuel + 1, c :: rest =>
    if c = quote then some ([], rest)
    else if c = '\\' then
      (escaped? rest).bind fun d => (characters? quote fuel d.2).map fun r => (d.1 :: r.1, r.2)
    else if c.toNat < 0x20 then none
    else (characters? quote fuel rest).map fun r => (c :: r.1, r.2)

/-- Whether a character is a quote. -/
def IsQuote (c : Char) : Prop :=
  c = '\'' ∨ c = '"'

instance (c : Char) : Decidable (IsQuote c) :=
  inferInstanceAs (Decidable (_ ∨ _))

/-! ### Escapes -/

theorem hexValue?_hexDigit {n : ℕ} (h : n < 16) : Json.hexValue? (hexDigit n) = some n := by
  interval_cases n <;> rfl

theorem hexNumber?_hexDigits (width n : ℕ) :
    hexNumber? (hexDigits width n) = some (n % 16 ^ width) := by
  induction width generalizing n with
  | zero => simp [hexDigits, hexNumber?, Nat.mod_one]
  | succ width ih =>
    have last : Json.hexValue? (hexDigit (n % 16)) = some (n % 16) :=
      hexValue?_hexDigit (Nat.mod_lt n (by norm_num))
    have digits : n % 16 ^ (width + 1) = 16 * (n / 16 % 16 ^ width) + n % 16 := by
      rw [pow_succ', Nat.mod_mul, Nat.add_comm]
    unfold hexNumber? at ih ⊢
    simp [hexDigits, List.foldlM_append, ih, last, digits]

theorem coded?_hexDigits {width : ℕ} {c : Char} (h : c.toNat < 16 ^ width) (rest : List Char) :
    coded? width (hexDigits width c.toNat ++ rest) = some (c, rest) := by
  have length := length_hexDigits width c.toNat
  have digits : (hexDigits width c.toNat ++ rest).take width = hexDigits width c.toNat :=
    List.take_left' length
  have valid : c.toNat.isValidChar := c.valid
  simp [coded?, digits, hexNumber?_hexDigits, Nat.mod_eq_of_lt h, valid, length,
    List.drop_left' length]

theorem escaped?_x {c : Char} (h : c.toNat < 16 ^ 2) (rest : List Char) :
    escaped? ('x' :: hexDigits 2 c.toNat ++ rest) = some (c, rest) :=
  coded?_hexDigits h rest

theorem escaped?_u {c : Char} (h : c.toNat < 16 ^ 4) (rest : List Char) :
    escaped? ('u' :: hexDigits 4 c.toNat ++ rest) = some (c, rest) :=
  coded?_hexDigits h rest

theorem escaped?_U {c : Char} (h : c.toNat < 16 ^ 8) (rest : List Char) :
    escaped? ('U' :: hexDigits 8 c.toNat ++ rest) = some (c, rest) :=
  coded?_hexDigits h rest

theorem printable_ge {c : Char} (h : isPrintable c = true) : 0x20 ≤ c.toNat := by
  unfold isPrintable at h
  split_ifs at h with ascii
  · exact (of_decide_eq_true h).1
  · omega

section Reading

variable {quote : Char} (hquote : IsQuote quote)

include hquote

theorem ne_backslash : quote ≠ '\\' := by
  rcases hquote with rfl | rfl <;> decide

/-- The escape of a character is read as the character. -/
theorem characters?_escape {c : Char} {escape rest : List Char}
    (h : escaped? (escape ++ rest) = some (c, rest)) (fuel : ℕ) :
    characters? quote (fuel + 1) ('\\' :: escape ++ rest) =
      (characters? quote fuel rest).map fun r => (c :: r.1, r.2) := by
  simp only [characters?, List.cons_append, if_neg (ne_backslash hquote).symm, if_pos, h,
    Option.bind_some]

theorem characters?_encodeChar (c : Char) (fuel : ℕ) (rest : List Char) :
    characters? quote (fuel + 1) (encodeChar quote c ++ rest) =
      (characters? quote fuel rest).map fun r => (c :: r.1, r.2) := by
  unfold encodeChar
  split_ifs with special newline feed tab printable byte short
  · have itself : escaped? ([c] ++ rest) = some (c, rest) := by
      simp only [Bool.or_eq_true, beq_iff_eq] at special
      rcases special with rfl | rfl
      · rcases hquote with rfl | rfl <;> rfl
      · rfl
    exact characters?_escape hquote itself fuel
  · obtain rfl : c = '\n' := by simpa using newline
    exact characters?_escape hquote (show escaped? (['n'] ++ rest) = _ from rfl) fuel
  · obtain rfl : c = '\r' := by simpa using feed
    exact characters?_escape hquote (show escaped? (['r'] ++ rest) = _ from rfl) fuel
  · obtain rfl : c = '\t' := by simpa using tab
    exact characters?_escape hquote (show escaped? (['t'] ++ rest) = _ from rfl) fuel
  · simp only [Bool.or_eq_true, beq_iff_eq, not_or] at special
    have visible := not_lt.mpr (printable_ge printable)
    simp only [List.singleton_append, characters?, if_neg special.1, if_neg special.2,
      if_neg visible]
  · have code : c.toNat < 16 ^ 2 := by omega
    exact characters?_escape hquote (escaped?_x code rest) fuel
  · have code : c.toNat < 16 ^ 4 := by omega
    exact characters?_escape hquote (escaped?_u code rest) fuel
  · have code : c.toNat < 16 ^ 8 := by
      have valid : c.toNat < 0xd800 ∨ 0xdfff < c.toNat ∧ c.toNat < 0x110000 := c.valid
      omega
    exact characters?_escape hquote (escaped?_U code rest) fuel

/-- What is written between quotes is read as what was written. -/
theorem characters?_encode {cs : List Char} {fuel : ℕ} (h : cs.length < fuel) (rest : List Char) :
    characters? quote fuel (cs.flatMap (encodeChar quote) ++ quote :: rest) =
      some (cs, rest) := by
  induction cs generalizing fuel with
  | nil =>
    obtain ⟨fuel, rfl⟩ := Nat.exists_eq_add_one_of_ne_zero (Nat.ne_of_gt h)
    simp [characters?]
  | cons c cs ih =>
    obtain ⟨fuel, rfl⟩ := Nat.exists_eq_add_one_of_ne_zero (Nat.ne_of_gt (Nat.zero_lt_of_lt h))
    rw [List.flatMap_cons, List.append_assoc, characters?_encodeChar hquote,
      ih (Nat.lt_of_succ_lt_succ h)]
    rfl

end Reading

/-! ### The whole text -/

theorem isQuote_quoteFor (single double : Bool) : IsQuote (quoteFor single double) := by
  cases single <;> cases double <;> decide

theorem length_le_flatMap (quote : Char) (cs : List Char) :
    cs.length ≤ (cs.flatMap (encodeChar quote)).length := by
  induction cs with
  | nil => simp
  | cons c cs ih =>
    have proper : 0 < (encodeChar quote c).length := by
      unfold encodeChar
      split_ifs <;> simp
    rw [List.flatMap_cons, List.length_append, List.length_cons]
    omega

/-- A quoted text begins and ends with a quote, and what stands between is read as the text. -/
theorem exists_encode (cs : List Char) : ∃ quote inner, IsQuote quote ∧
    encode cs = quote :: (inner ++ [quote]) ∧ ∀ fuel > inner.length, ∀ rest,
      characters? quote fuel (inner ++ quote :: rest) = some (cs, rest) := by
  refine ⟨_, _, isQuote_quoteFor _ _, rfl, fun fuel hfuel rest => ?_⟩
  exact characters?_encode (isQuote_quoteFor _ _) ((length_le_flatMap _ cs).trans_lt hfuel) rest

end Lexicon.Text.Quoted
