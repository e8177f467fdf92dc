import Lexicon.Proofs.Identifier.Characters
import Lexicon.Proofs.Identifier.Sorting
import Mathlib.Data.List.Basic
import Mathlib.Tactic.Ring

/-!
# Reading timestamp identifiers

Of two numerals in a row the first counts units of the width of the second. Main statements:
exactly the texts of identifiers are read as identifiers, and the thirteen digits of such a text are
together the numeral of the time moved up by ten bits and the clock.
-/

namespace Lexicon

namespace Base32

/-! ### Numerals in a row -/

/-- The number already read counts units of the digits to come. -/
theorem decodeFrom_eq (n : Nat) (cs : List Char) :
    decodeFrom n cs = (n * 32 ^ cs.length + ·) <$> decode cs := by
  induction cs generalizing n with
  | nil => simp [decode, decodeFrom]
  | cons c rest ih =>
    rw [decode, decodeFrom, decodeFrom]
    cases value? c with
    | none => rfl
    | some d =>
      dsimp only
      rw [ih (n * 32 + d), ih (0 * 32 + d)]
      cases decode rest with
      | error e => rfl
      | ok m =>
        rw [Except.ok_map, Except.ok_map, Except.ok_map, List.length_cons, pow_succ]
        congr 1
        ring

theorem decode_append {cs ds : List Char} {n m : Nat} (h : decode cs = .ok n)
    (h' : decode ds = .ok m) : decode (cs ++ ds) = .ok (n * 32 ^ ds.length + m) := by
  rw [decode, decodeFrom_append]
  change decode cs >>= _ = _
  rw [h, Except.ok_bind, decodeFrom_eq, h', Except.ok_map]

/-- The lower digits are the first ones of the alphabet. -/
theorem mem_take_alphabet_iff {c : Char} {d k : Nat} (h : value? c = some d) :
    c ∈ alphabet.take k ↔ d < k := by
  have place : alphabet.idxOf c = d := by
    rw [value?] at h
    rw [List.idxOf_eq_getD_idxOf?, h, Option.getD_some]
  rw [List.mem_take_iff_idxOf_lt (mem_alphabet_of_value? h), place]

end Base32

namespace Tid

open Base32

variable {s : String} {t : Tid}

/-! ### The form of an identifier -/

theorem mem_alphabet_of_isDigit {c : Char} (h : isDigit c = true) : c ∈ alphabet := by
  obtain ⟨d, hd⟩ := Option.isSome_iff_exists.mp h
  exact mem_alphabet_of_value? hd

theorem mem_low_of_isLowDigit {c : Char} (h : isLowDigit c = true) :
    c ∈ "234567abcdefghij".toList := by
  have low : "234567abcdefghij".toList = alphabet.take 16 := by decide
  obtain ⟨d, hd, small⟩ := (Option.any_eq_true _ _).mp h
  rw [low, mem_take_alphabet_iff hd]
  exact of_decide_eq_true small

/-- What has the form of an identifier is the text of one. -/
theorem exists_toList_text_eq {w : List Char} (h : isTidText w = true) :
    ∃ t : Tid, t.text.toList = w := by
  simp only [isTidText, Bool.and_eq_true, beq_iff_eq, List.all_eq_true] at h
  obtain ⟨⟨length, digits⟩, low⟩ := h
  obtain ⟨c, rest, rfl⟩ : ∃ c rest, w = c :: rest := List.exists_cons_of_length_pos (by omega)
  obtain ⟨t, ht⟩ := exists_text_eq (s := String.ofList (c :: rest)) String.toList_ofList
    (by rw [String.toList_ofList, length]) (mem_low_of_isLowDigit low)
    fun x hx => mem_alphabet_of_isDigit (digits x (List.mem_cons_of_mem _ hx))
  exact ⟨t, by rw [ht, String.toList_ofList]⟩

theorem isValid_text_newline (t : Tid) : isValid (t.text ++ "\n") = true := by
  have whole : (t.text ++ "\n").toList = t.chars ++ ['\n'] := by
    rw [String.toList_append, text, String.toList_ofList]
    rfl
  rw [isValid, whole, Text.dropFinalNewline_append_newline]
  exact t.isTidText_chars

/-- Apart from the texts of identifiers, only these with a newline after them have the form. -/
theorem isValid_iff : isValid s = true ↔ ∃ t : Tid, s = t.text ∨ s = t.text ++ "\n" := by
  constructor
  · intro h
    obtain ⟨t, ht⟩ := exists_toList_text_eq h
    refine ⟨t, ?_⟩
    rcases Text.dropFinalNewline_cases s.toList with same | newline
    · left
      rw [← String.toList_inj, ht, ← same]
    · right
      rw [← String.toList_inj, String.toList_append, ht]
      exact newline
  · rintro ⟨t, rfl | rfl⟩
    · exact t.isValid_text
    · exact t.isValid_text_newline

/-! ### What is read -/

theorem decode_eq_some_iff : decode s = .ok (some t) ↔ t.text = s := by
  constructor
  · exact text_of_decode
  · rintro rfl
    exact t.decode_of_text

/-- The fault of a text of an identifier with a newline after it, which is no digit of the clock. -/
def newlineFault (t : Tid) : Fault :=
  .argument (.foreignCharacter '\n' (String.ofList (padded 2 (encode t.clockId) ++ ['\n'])))

theorem decode_text_newline (t : Tid) : decode (t.text ++ "\n") = .error t.newlineFault := by
  have width : (padded 11 (encode t.timestamp)).length = 11 :=
    length_padded_encode t.timestamp_lt_pow
  have whole : (t.text ++ "\n").toList =
      padded 11 (encode t.timestamp) ++ (padded 2 (encode t.clockId) ++ ['\n']) := by
    rw [String.toList_append, text, String.toList_ofList, chars, List.append_assoc]
    rfl
  have first : readDigits ((t.text ++ "\n").toList.take 11) = .ok t.timestamp := by
    rw [whole, List.take_left' width, readDigits, decode_padded_encode t.timestamp_lt_pow]
  have second : Base32.decode ((t.text ++ "\n").toList.drop 11) = .error '\n' := by
    have clock := decode_padded_encode t.clockId_lt_pow
    rw [Base32.decode] at clock
    rw [whole, List.drop_left' width, Base32.decode, decodeFrom_append, clock]
    rfl
  rw [decode, if_pos t.isValid_text_newline, first, Except.ok_bind, readDigits, second,
    Except.error_bind, whole, List.drop_left' width, newlineFault]

theorem decode_of_not_isValid (h : isValid s = false) : decode s = .ok none := by
  rw [decode, h]
  rfl

/-- Reading gives none, an identifier or the fault at a newline. -/
theorem decode_cases (s : String) :
    (isValid s = false ∧ decode s = .ok none) ∨ (∃ t, decode s = .ok (some t)) ∨
      ∃ t : Tid, s = t.text ++ "\n" ∧ decode s = .error t.newlineFault := by
  cases valid : isValid s with
  | false => exact .inl ⟨rfl, decode_of_not_isValid valid⟩
  | true =>
    obtain ⟨t, rfl | rfl⟩ := isValid_iff.mp valid
    · exact .inr (.inl ⟨t, t.decode_of_text⟩)
    · exact .inr (.inr ⟨t, rfl, t.decode_text_newline⟩)

theorem decode_eq_none_iff : decode s = .ok none ↔ isValid s = false := by
  refine ⟨fun h => ?_, decode_of_not_isValid⟩
  obtain ⟨invalid, -⟩ | ⟨t, read⟩ | ⟨t, -, fails⟩ := decode_cases s
  · exact invalid
  · cases h.symm.trans read
  · cases h.symm.trans fails

theorem decode_eq_error_iff {fault : Fault} :
    decode s = .error fault ↔ ∃ t : Tid, s = t.text ++ "\n" ∧ fault = t.newlineFault := by
  constructor
  · intro h
    obtain ⟨-, read⟩ | ⟨t, read⟩ | ⟨t, same, fails⟩ := decode_cases s
    · cases h.symm.trans read
    · cases h.symm.trans read
    · exact ⟨t, same, Except.error.inj (h.symm.trans fails)⟩
  · rintro ⟨t, rfl, rfl⟩
    exact t.decode_text_newline

/-- **What is read as an identifier.** Exactly the text of an identifier is read as it. A text that
does not have the form of one is read as none. What is left is the text of an identifier with a
newline after it, which has the form and fails at that newline. -/
theorem decode_iff_text (s : String) :
    (∀ t, decode s = .ok (some t) ↔ t.text = s) ∧
      (decode s = .ok none ↔ isValid s = false) ∧
      ∀ fault, decode s = .error fault ↔
        ∃ t : Tid, s = t.text ++ "\n" ∧ fault = t.newlineFault :=
  ⟨fun _ => decode_eq_some_iff, decode_eq_none_iff, fun _ => decode_eq_error_iff⟩

/-- The newline that the form allows is no part of an identifier. -/
theorem not_isOk_decode_newline :
    isValid "3jzfcijpj2z2a\n" = true ∧
      decode "3jzfcijpj2z2a\n" = .error (.argument (.foreignCharacter '\n' "2a\n")) :=
  ⟨by decide +kernel, rfl⟩

/-! ### The number of a whole text -/

theorem decode_chars (t : Tid) :
    Base32.decode t.chars = .ok (t.timestamp * 1024 + t.clockId) := by
  rw [chars, decode_append (decode_padded_encode t.timestamp_lt_pow)
    (decode_padded_encode t.clockId_lt_pow), length_padded_encode t.clockId_lt_pow]
  rfl

/-- The first of thirteen digits counts units of sixty bits. -/
theorem number_lt_iff (t : Tid) :
    t.timestamp * 1024 + t.clockId < 2 ^ 63 ↔ ∃ c ∈ t.chars.head?, c ∈ "234567ab".toList := by
  have low : "234567ab".toList = alphabet.take 8 := by decide
  have whole := t.decode_chars
  have width := t.length_chars
  have digits : ∀ c ∈ t.chars, c ∈ alphabet := fun _ => mem_alphabet_of_mem_chars
  obtain ⟨c, rest, hc⟩ : ∃ c rest, t.chars = c :: rest :=
    List.exists_cons_of_length_pos (by omega)
  rw [hc, List.length_cons] at width
  rw [hc, List.forall_mem_cons] at digits
  obtain ⟨d, hd, -, -⟩ := digit_of_mem c digits.1
  obtain ⟨m, hm, -⟩ := exists_padded_encode rest digits.2
  have first : Base32.decode [c] = .ok d := by simp [Base32.decode, decodeFrom, hd]
  have small : m < (0 + 1) * 32 ^ rest.length := lt_of_decodeFrom digits.2 hm
  have number : d * 32 ^ rest.length + m = t.timestamp * 1024 + t.clockId := by
    have read := decode_append first hm
    rw [List.singleton_append, ← hc, whole] at read
    exact (Except.ok.inj read).symm
  have remaining : rest.length = 12 := by omega
  rw [remaining] at small number
  rw [hc, List.head?_cons, ← number]
  simp only [Option.mem_some_iff, exists_eq_left', low, mem_take_alphabet_iff hd]
  omega

/-- **The number of an identifier.** The thirteen digits of a text that is read as an identifier are
together the numeral of its time moved up by ten bits and its clock. The number has 64 bits. The
highest of them is clear exactly if the time fits in 53 bits, and exactly if the first digit is one
of the lowest eight. -/
theorem decode_whole {s : String} {t : Tid} (h : decode s = .ok (some t)) :
    ∃ n, Base32.decode s.toList = .ok n ∧ n = t.timestamp * 1024 + t.clockId ∧ n < 2 ^ 64 ∧
      (n < 2 ^ 63 ↔ t.timestamp < 2 ^ 53) ∧
      (n < 2 ^ 63 ↔ ∃ c ∈ s.toList.head?, c ∈ "234567ab".toList) := by
  obtain rfl := text_of_decode h
  rw [text, String.toList_ofList]
  have time := t.timestamp_lt
  have clock := t.clockId_lt
  exact ⟨_, t.decode_chars, rfl, by omega, by omega, t.number_lt_iff⟩

/-- The text of the last identifier of all is the numeral of the last number of 64 bits. -/
theorem decode_whole_last :
    ∃ t, decode "jzzzzzzzzzzzz" = .ok (some t) ∧
      Base32.decode "jzzzzzzzzzzzz".toList = .ok (2 ^ 64 - 1) ∧ ¬t.timestamp < 2 ^ 53 := by
  obtain ⟨t, ht⟩ : ∃ t, decode "jzzzzzzzzzzzz" = .ok (some t) := ⟨_, rfl⟩
  obtain ⟨n, hn, -, -, clear, -⟩ := decode_whole ht
  have last : n = 2 ^ 64 - 1 := Except.ok.inj (hn.symm.trans rfl)
  refine ⟨t, ht, by rw [hn, last], ?_⟩
  rw [← clear, last]
  decide

/-- A text whose first digit is the ninth one has a number with the highest bit set. -/
theorem not_number_lt :
    ∃ t n, decode "c222222222222" = .ok (some t) ∧
      Base32.decode "c222222222222".toList = .ok n ∧ ¬n < 2 ^ 63 :=
  ⟨_, _, rfl, rfl, by decide⟩

end Tid

end Lexicon
