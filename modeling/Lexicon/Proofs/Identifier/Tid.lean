import Lexicon.Identifier.Tid
import Lexicon.Proofs.Outcome
import Mathlib.Algebra.Group.Nat.Defs
import Mathlib.Data.Bool.AllAny
import Mathlib.Data.List.Induction

/-!
# Timestamp identifiers and their texts

A number below `32 ^ k` has exactly one numeral of `k` digits, the shortest numeral filled up with
zero digits on the left. An identifier is two such numerals in a row, of eleven and of two digits,
and a low first digit says that the time fits in 54 bits.

Main statement: writing and reading identifiers are inverse to each other.
-/

namespace Lexicon.Base32

/-! ### Digits -/

theorem value?_digit : ∀ n < 32, value? (digit n) = some n := by
  unfold value? digit alphabet
  rw [String.toList_ofList]
  decide

-- Decided over the list: the instance for statements on all characters tries every one of them.

theorem digit_of_mem : ∀ c ∈ alphabet, ∃ d, value? c = some d ∧ d < 32 ∧ digit d = c := by
  unfold value? digit alphabet
  rw [String.toList_ofList]
  exact List.all_iff_forall_prop.mp (by decide)

theorem value?_of_mem_low :
    ∀ c ∈ "234567abcdefghij".toList, ∃ d, value? c = some d ∧ d < 16 := by
  unfold value? alphabet
  rw [String.toList_ofList, String.toList_ofList]
  exact List.all_iff_forall_prop.mp (by decide)

theorem mem_alphabet_of_low : ∀ c ∈ "234567abcdefghij".toList, c ∈ alphabet := by
  unfold alphabet
  rw [String.toList_ofList, String.toList_ofList]
  exact List.all_iff_forall_prop.mp (by decide)

theorem digit_zero : digit 0 = '2' := by
  decide

theorem digit_mem : ∀ n < 32, digit n ∈ alphabet := by
  unfold digit alphabet
  rw [String.toList_ofList]
  decide

/-! ### Numerals -/

@[simp]
theorem encode_zero : encode 0 = [] := by
  rw [encode, if_pos rfl]

theorem decodeFrom_append (n : Nat) (cs ds : List Char) :
    decodeFrom n (cs ++ ds) = decodeFrom n cs >>= fun m => decodeFrom m ds := by
  induction cs generalizing n with
  | nil => rfl
  | cons a rest ih =>
    cases ha : value? a with
    | none => simp only [List.cons_append, decodeFrom, ha]; rfl
    | some d => simpa only [List.cons_append, decodeFrom, ha] using ih (n * 32 + d)

theorem decode_concat {cs : List Char} {c : Char} {n d : Nat} (h : decode cs = .ok n)
    (hc : value? c = some d) : decode (cs ++ [c]) = .ok (n * 32 + d) := by
  rw [decode, decodeFrom_append]
  rw [decode] at h
  rw [h]
  change decodeFrom n [c] = _
  rw [decodeFrom, hc]
  rfl

/-- The digits to come only add less than one unit of the number already read. -/
theorem lt_of_decodeFrom {n m : Nat} {cs : List Char} (digits : ∀ c ∈ cs, c ∈ alphabet)
    (h : decodeFrom n cs = .ok m) : m < (n + 1) * 32 ^ cs.length := by
  induction cs generalizing n with
  | nil =>
    cases h
    simp
  | cons c rest ih =>
    obtain ⟨d, hd, small, -⟩ := digit_of_mem c (digits c List.mem_cons_self)
    rw [decodeFrom, hd] at h
    have rest_lt := ih (fun x hx => digits x (List.mem_cons_of_mem _ hx)) h
    have unit : n * 32 + d + 1 ≤ (n + 1) * 32 := by omega
    calc m < (n * 32 + d + 1) * 32 ^ rest.length := rest_lt
      _ ≤ (n + 1) * 32 * 32 ^ rest.length := Nat.mul_le_mul_right _ unit
      _ = (n + 1) * 32 ^ (c :: rest).length := by
        rw [List.length_cons, Nat.pow_succ, Nat.mul_assoc, Nat.mul_comm 32]

end Lexicon.Base32

namespace Lexicon.Tid

open Base32

/-! ### Numerals of one width -/

/-- A filled-up numeral ends in its last digit, also where no digit but zero stands. -/
theorem padded_encode_succ (k n : Nat) :
    padded (k + 1) (encode n) = padded k (encode (n / 32)) ++ [digit (n % 32)] := by
  by_cases h : n = 0
  · subst h
    simp only [Nat.zero_div, Nat.zero_mod, encode_zero, digit_zero, padded, List.length_nil,
      Nat.sub_zero, List.append_nil, List.replicate_succ']
  · rw [encode, if_neg h]
    simp [padded]

/-- What holds of the numeral without digits, and of a numeral with one more digit at its end if of
the numeral before, holds of the filled-up numerals of every width. -/
theorem padded_induction {motive : Nat → Nat → List Char → Prop} (zero : motive 0 0 [])
    (step : ∀ k n cs, motive k (n / 32) cs → motive (k + 1) n (cs ++ [digit (n % 32)])) {k n : Nat}
    (h : n < 32 ^ k) : motive k n (padded k (encode n)) := by
  induction k generalizing n with
  | zero =>
    obtain rfl : n = 0 := by simpa using h
    rw [encode_zero]
    exact zero
  | succ k ih =>
    have smaller : n / 32 < 32 ^ k := by rw [Nat.pow_succ] at h; omega
    rw [padded_encode_succ]
    exact step k n _ (ih smaller)

theorem length_padded_encode {k n : Nat} (h : n < 32 ^ k) :
    (padded k (encode n)).length = k := by
  refine padded_induction (motive := fun k _ cs => cs.length = k) rfl ?_ h
  intro k n cs length
  rw [List.length_append, length]
  rfl

theorem decode_padded_encode {k n : Nat} (h : n < 32 ^ k) :
    Base32.decode (padded k (encode n)) = .ok n := by
  refine padded_induction (motive := fun _ n cs => Base32.decode cs = .ok n) rfl ?_ h
  intro k n cs front
  have last : value? (digit (n % 32)) = some (n % 32) :=
    value?_digit _ (Nat.mod_lt _ (by omega))
  rw [decode_concat front last]
  congr 1
  omega

theorem mem_alphabet_of_mem_padded_encode {k n : Nat} {c : Char}
    (hc : c ∈ padded k (encode n)) (h : n < 32 ^ k) : c ∈ alphabet := by
  refine padded_induction (motive := fun _ _ cs => ∀ c ∈ cs, c ∈ alphabet)
    (List.forall_mem_nil _) ?_ h c hc
  intro k n cs front
  exact List.forall_mem_append.mpr
    ⟨front, List.forall_mem_singleton.mpr (digit_mem _ (Nat.mod_lt _ (by omega)))⟩

/-- Every row of digits is the numeral of its own width of the number that it stands for. -/
theorem exists_padded_encode (cs : List Char) (digits : ∀ c ∈ cs, c ∈ alphabet) :
    ∃ n, Base32.decode cs = .ok n ∧ padded cs.length (encode n) = cs := by
  induction cs using List.reverseRecOn with
  | nil =>
    refine ⟨0, rfl, ?_⟩
    rw [encode_zero]
    rfl
  | append_singleton cs c ih =>
    obtain ⟨n, hn, filled⟩ := ih fun x hx => digits x (List.mem_append_left _ hx)
    obtain ⟨d, hd, small, rfl⟩ := digit_of_mem c (digits c (by simp))
    refine ⟨n * 32 + d, decode_concat hn hd, ?_⟩
    have quotient : (n * 32 + d) / 32 = n := by omega
    have remainder : (n * 32 + d) % 32 = d := by omega
    rw [List.length_append, List.length_singleton, padded_encode_succ, quotient, remainder, filled]

/-! ### The form of an identifier -/

theorem isDigit_of_mem {c : Char} (h : c ∈ alphabet) : isDigit c = true := by
  obtain ⟨d, hd, -⟩ := digit_of_mem c h
  simp [isDigit, hd]

/-- The first digit of a number below `d * 32 ^ k` is below `d`. -/
theorem head?_padded_encode {k n d : Nat} (h : n < d * 32 ^ k) (hd : d ≤ 32) :
    ∃ c rest, padded (k + 1) (encode n) = c :: rest ∧ (value? c).any (· < d) = true := by
  induction k generalizing n with
  | zero =>
    have small : n < d := by simpa using h
    refine ⟨digit n, [], ?_, ?_⟩
    · have quotient : n / 32 = 0 := by omega
      have remainder : n % 32 = n := by omega
      rw [padded_encode_succ, quotient, remainder, encode_zero]
      rfl
    · rw [value?_digit n (by omega)]
      simpa using small
  | succ k ih =>
    have smaller : n / 32 < d * 32 ^ k := by
      rw [Nat.pow_succ, ← Nat.mul_assoc] at h
      omega
    obtain ⟨c, rest, hc, low⟩ := ih smaller
    refine ⟨c, rest ++ [digit (n % 32)], ?_, low⟩
    rw [padded_encode_succ, hc, List.cons_append]

theorem timestamp_lt_pow (t : Tid) : t.timestamp < 32 ^ 11 :=
  Nat.lt_trans t.timestamp_lt (by decide)

theorem clockId_lt_pow (t : Tid) : t.clockId < 32 ^ 2 :=
  Nat.lt_of_lt_of_eq t.clockId_lt (by decide)

theorem length_chars (t : Tid) : t.chars.length = 13 := by
  rw [chars, List.length_append, length_padded_encode t.timestamp_lt_pow,
    length_padded_encode t.clockId_lt_pow]

theorem mem_alphabet_of_mem_chars {t : Tid} {c : Char} (h : c ∈ t.chars) : c ∈ alphabet := by
  rw [chars, List.mem_append] at h
  rcases h with h | h
  · exact mem_alphabet_of_mem_padded_encode h t.timestamp_lt_pow
  · exact mem_alphabet_of_mem_padded_encode h t.clockId_lt_pow

theorem isTidText_of_digits {cs : List Char} {c : Char} {rest : List Char} (hcs : cs = c :: rest)
    (length : cs.length = 13) (digits : ∀ c ∈ cs, c ∈ alphabet) (low : isLowDigit c = true) :
    isTidText cs = true := by
  have all : cs.all isDigit = true :=
    List.all_eq_true.mpr fun x hx => isDigit_of_mem (digits x hx)
  rw [isTidText, length, all, hcs]
  simpa using low

theorem dropFinalNewline_of_digits {cs : List Char} (digits : ∀ c ∈ cs, c ∈ alphabet) :
    Text.dropFinalNewline cs = cs := by
  have noNewline : '\n' ∉ alphabet := by decide
  exact Text.dropFinalNewline_of_notMem fun h => noNewline (digits _ h)

theorem isTidText_chars (t : Tid) : isTidText t.chars = true := by
  obtain ⟨c, rest, hc, low⟩ :=
    head?_padded_encode (k := 10) (d := 16) t.timestamp_lt (by decide)
  have whole : t.chars = c :: (rest ++ padded 2 (encode t.clockId)) := by
    rw [chars, hc, List.cons_append]
  exact isTidText_of_digits whole t.length_chars (fun _ => mem_alphabet_of_mem_chars) low

theorem isValid_text (t : Tid) : isValid t.text = true := by
  rw [isValid, text, String.toList_ofList,
    dropFinalNewline_of_digits fun _ => mem_alphabet_of_mem_chars]
  exact t.isTidText_chars

/-! ### Writing and reading -/

theorem ofParts_natCast (t : Tid) : ofParts t.timestamp t.clockId = .ok t := by
  have ht := t.timestamp_lt
  have hc := t.clockId_lt
  rw [ofParts, dif_pos (by omega), dif_pos (by omega)]
  rfl

/-- Two numerals in a row are read as the parts of an identifier. -/
theorem decode_of_parts {s : String} {t : Tid} (valid : isValid s = true)
    (first : Base32.decode (s.toList.take 11) = .ok t.timestamp)
    (second : Base32.decode (s.toList.drop 11) = .ok t.clockId) : decode s = .ok (some t) := by
  have time : readDigits (s.toList.take 11) = .ok t.timestamp := by rw [readDigits, first]
  have clock : readDigits (s.toList.drop 11) = .ok t.clockId := by rw [readDigits, second]
  rw [decode, if_pos valid]
  refine Except.bind_eq_ok_iff.mpr ⟨_, time, Except.bind_eq_ok_iff.mpr ⟨_, clock, ?_⟩⟩
  exact Except.bind_eq_ok_iff.mpr ⟨t, t.ofParts_natCast, rfl⟩

theorem decode_of_text (t : Tid) : decode t.text = .ok (some t) := by
  have width : (padded 11 (encode t.timestamp)).length = 11 :=
    length_padded_encode t.timestamp_lt_pow
  refine decode_of_parts t.isValid_text ?_ ?_
  · rw [text, String.toList_ofList, chars, List.take_left' width]
    exact decode_padded_encode t.timestamp_lt_pow
  · rw [text, String.toList_ofList, chars, List.drop_left' width]
    exact decode_padded_encode t.clockId_lt_pow

/-- Thirteen digits of which the first is low are the text of an identifier. -/
theorem exists_text_eq {c : Char} {rest : List Char} {s : String} (hs : s.toList = c :: rest)
    (length : s.toList.length = 13) (low : c ∈ "234567abcdefghij".toList)
    (digits : ∀ x ∈ rest, x ∈ alphabet) : ∃ t : Tid, t.text = s := by
  have all : ∀ x ∈ s.toList, x ∈ alphabet := by
    rw [hs]
    exact List.forall_mem_cons.mpr ⟨mem_alphabet_of_low c low, digits⟩
  obtain ⟨n, hn, first⟩ := exists_padded_encode (s.toList.take 11)
    fun x hx => all x (List.mem_of_mem_take hx)
  obtain ⟨m, hm, second⟩ := exists_padded_encode (s.toList.drop 11)
    fun x hx => all x (List.mem_of_mem_drop hx)
  rw [List.length_take, length] at first
  rw [List.length_drop, length] at second
  have timestamp_lt : n < 0x40000000000000 := by
    obtain ⟨d, hd, small⟩ := value?_of_mem_low c low
    rw [hs, List.take_succ_cons, Base32.decode, decodeFrom, hd] at hn
    have bound := lt_of_decodeFrom (fun x hx => digits x (List.mem_of_mem_take hx)) hn
    have width : (rest.take 10).length = 10 := by
      rw [hs, List.length_cons] at length
      rw [List.length_take]
      omega
    rw [width] at bound
    omega
  have clockId_lt : m < 1024 := by
    have bound := lt_of_decodeFrom (fun x hx => all x (List.mem_of_mem_drop hx)) hm
    rw [List.length_drop, length] at bound
    omega
  refine ⟨⟨n, m, timestamp_lt, clockId_lt⟩, ?_⟩
  rw [text, chars]
  change String.ofList (padded 11 (encode n) ++ padded 2 (encode m)) = s
  have parts : padded 11 (encode n) ++ padded 2 (encode m) = s.toList := by
    rw [show padded 11 (encode n) = s.toList.take 11 from first,
      show padded 2 (encode m) = s.toList.drop 11 from second, List.take_append_drop]
  rw [parts, String.ofList_toList]

/-- **Writing and reading identifiers are inverse to each other.** The text of an identifier has
thirteen characters and the form of one, and reading it gives the identifier back. Every text of
thirteen digits, the first of them one of the lower sixteen, is read as an identifier whose text it
is. -/
theorem decode_text_and_text_decode :
    (∀ t : Tid, t.text.length = 13 ∧ isValid t.text = true ∧ decode t.text = .ok (some t)) ∧
      ∀ s : String, s.length = 13 → (∀ c ∈ s.toList.head?, c ∈ "234567abcdefghij".toList) →
        (∀ c ∈ s.toList.tail, c ∈ alphabet) →
        ∃ t : Tid, decode s = .ok (some t) ∧ t.text = s := by
  refine ⟨fun t => ⟨?_, t.isValid_text, t.decode_of_text⟩, ?_⟩
  · rw [text, String.length_ofList, t.length_chars]
  · intro s length low digits
    rw [← String.length_toList] at length
    obtain ⟨c, rest, hs⟩ : ∃ c rest, s.toList = c :: rest :=
      List.exists_cons_of_length_pos (by omega)
    rw [hs] at low digits
    obtain ⟨t, rfl⟩ := exists_text_eq hs length (low c rfl) digits
    exact ⟨t, t.decode_of_text, rfl⟩

/-- The last identifier of all is read from its text. -/
theorem decode_last :
    ∃ t : Tid, decode "jzzzzzzzzzzzz" = .ok (some t) ∧ t.text = "jzzzzzzzzzzzz" :=
  decode_text_and_text_decode.2 "jzzzzzzzzzzzz" (by decide)
    (by rintro _ ⟨⟩; decide) (List.all_iff_forall_prop.mp (by decide +kernel))

end Lexicon.Tid
