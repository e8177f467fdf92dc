import Lexicon.Proofs.Identifier.Tid
import Mathlib.Data.Prod.Lex
import Mathlib.Data.String.Basic

/-!
# Timestamp identifiers in order

The digits of sortable base 32 stand in code-point order, so numerals of one width sort like their
numbers. An identifier is a numeral of its time followed by one of its clock, both of fixed width:
the first decides unless the times are equal.

Main statement: texts of identifiers sort like the identifiers.
-/

namespace List

/-- Of two lists with beginnings of one length the beginnings decide, unless they are equal. -/
theorem append_lt_append_iff {α : Type} [LT α] [Std.Irrefl ((· < ·) : α → α → Prop)]
    {xs ys as bs : List α} (length : xs.length = ys.length) :
    xs ++ as < ys ++ bs ↔ xs < ys ∨ xs = ys ∧ as < bs := by
  induction xs generalizing ys with
  | nil =>
    obtain rfl : ys = [] := List.length_eq_zero_iff.mp length.symm
    simp
  | cons x xs ih =>
    obtain ⟨y, ys, rfl⟩ : ∃ y ys', ys = y :: ys' :=
      List.exists_cons_of_length_eq_add_one length.symm
    rw [length_cons, length_cons, Nat.add_right_cancel_iff] at length
    rw [cons_append, cons_append, cons_lt_cons_iff, cons_lt_cons_iff, ih length, cons.injEq]
    tauto

end List

namespace Lexicon

namespace Base32

theorem digit_lt_digit_iff : ∀ n < 32, ∀ m < 32, digit n < digit m ↔ n < m := by
  unfold digit alphabet
  rw [String.toList_ofList]
  decide

theorem mem_alphabet_of_value? {c : Char} {d : Nat} (h : value? c = some d) : c ∈ alphabet := by
  rw [value?] at h
  exact List.isSome_idxOf?.mp (h ▸ rfl)

/-- Nothing but digits is read as a number. -/
theorem mem_alphabet_of_decodeFrom {n m : Nat} {cs : List Char} (h : decodeFrom n cs = .ok m) :
    ∀ c ∈ cs, c ∈ alphabet := by
  induction cs generalizing n with
  | nil => simp
  | cons c rest ih =>
    rw [decodeFrom] at h
    split at h
    · next d hd => exact List.forall_mem_cons.mpr ⟨mem_alphabet_of_value? hd, ih h⟩
    · cases h

end Base32

namespace Tid

open Base32

theorem padded_encode_inj {k n m : Nat} (hn : n < 32 ^ k) (hm : m < 32 ^ k) :
    padded k (encode n) = padded k (encode m) ↔ n = m := by
  constructor
  · intro h
    have read := decode_padded_encode hn
    rw [h, decode_padded_encode hm] at read
    exact (Except.ok.inj read).symm
  · rintro rfl
    rfl

/-- Numerals of one width sort like their numbers. The induction is on the width: all digits but the
last are the numeral of a 32nd of the number. -/
theorem padded_encode_lt_iff {k n m : Nat} (hn : n < 32 ^ k) (hm : m < 32 ^ k) :
    padded k (encode n) < padded k (encode m) ↔ n < m := by
  induction k generalizing n m with
  | zero =>
    obtain rfl : n = 0 := by simpa using hn
    obtain rfl : m = 0 := by simpa using hm
    simp
  | succ k ih =>
    have hn' : n / 32 < 32 ^ k := by rw [Nat.pow_succ] at hn; omega
    have hm' : m / 32 < 32 ^ k := by rw [Nat.pow_succ] at hm; omega
    have length : (padded k (encode (n / 32))).length = (padded k (encode (m / 32))).length := by
      rw [length_padded_encode hn', length_padded_encode hm']
    have last : digit (n % 32) < digit (m % 32) ↔ n % 32 < m % 32 :=
      digit_lt_digit_iff _ (Nat.mod_lt _ (by omega)) _ (Nat.mod_lt _ (by omega))
    rw [padded_encode_succ, padded_encode_succ, List.append_lt_append_iff length, ih hn' hm',
      padded_encode_inj hn' hm', List.cons_lt_cons_iff, last]
    simp only [List.lt_irrefl, and_false, or_false]
    omega

theorem text_lt_text_iff (t u : Tid) :
    t.text < u.text ↔
      t.timestamp < u.timestamp ∨ t.timestamp = u.timestamp ∧ t.clockId < u.clockId := by
  have length : (padded 11 (encode t.timestamp)).length =
      (padded 11 (encode u.timestamp)).length := by
    rw [length_padded_encode t.timestamp_lt_pow, length_padded_encode u.timestamp_lt_pow]
  rw [text, text, String.lt_iff_toList_lt, String.toList_ofList, String.toList_ofList, chars, chars,
    List.append_lt_append_iff length, padded_encode_lt_iff t.timestamp_lt_pow u.timestamp_lt_pow,
    padded_encode_inj t.timestamp_lt_pow u.timestamp_lt_pow,
    padded_encode_lt_iff t.clockId_lt_pow u.clockId_lt_pow]

/-- The order of identifiers is that of their texts. -/
theorem le_eq_decide_text_le (t u : Tid) : t.le u = decide (t.text ≤ u.text) := by
  rw [Bool.eq_iff_iff, decide_eq_true_iff, ← not_lt, text_lt_text_iff]
  simp only [le, Bool.or_eq_true, Bool.and_eq_true, decide_eq_true_eq, beq_iff_eq]
  omega

/-! ### What is read -/

theorem decode_of_readDigits {cs : List Char} {n : Nat} (h : readDigits cs = .ok n) :
    Base32.decode cs = .ok n := by
  unfold readDigits at h
  split at h
  · next m hm => rw [hm, Except.ok.inj h]
  · cases h

theorem parts_of_ofParts {n m : Nat} {t : Tid} (h : ofParts n m = .ok t) :
    t.timestamp = n ∧ t.clockId = m := by
  unfold ofParts at h
  split_ifs at h
  obtain rfl := Except.ok.inj h
  exact ⟨rfl, rfl⟩

theorem padded_encode_of_decode {cs : List Char} {n : Nat} (h : Base32.decode cs = .ok n) :
    padded cs.length (encode n) = cs := by
  obtain ⟨m, hm, filled⟩ := exists_padded_encode cs (mem_alphabet_of_decodeFrom h)
  rwa [← Except.ok.inj (hm.symm.trans h)]

/-- What is read as an identifier is its text; a newline at the end would be no digit. -/
theorem text_of_decode {s : String} {t : Tid} (h : decode s = .ok (some t)) : t.text = s := by
  rw [decode] at h
  split_ifs at h with valid
  · obtain ⟨n, hn, h⟩ := Except.bind_eq_ok_iff.mp h
    obtain ⟨m, hm, h⟩ := Except.bind_eq_ok_iff.mp h
    obtain ⟨_, made, h⟩ := Except.bind_eq_ok_iff.mp h
    obtain rfl := Option.some.inj (Except.ok.inj h)
    obtain ⟨rfl, rfl⟩ := parts_of_ofParts made
    replace hn := decode_of_readDigits hn
    replace hm := decode_of_readDigits hm
    have digits : ∀ c ∈ s.toList, c ∈ alphabet := by
      rw [← List.take_append_drop 11 s.toList, List.forall_mem_append]
      exact ⟨mem_alphabet_of_decodeFrom hn, mem_alphabet_of_decodeFrom hm⟩
    have width : s.toList.length = 13 := by
      rw [isValid, dropFinalNewline_of_digits digits, isTidText] at valid
      simp only [Bool.and_eq_true, beq_iff_eq] at valid
      exact valid.1.1
    have first := padded_encode_of_decode hn
    have second := padded_encode_of_decode hm
    rw [List.length_take, width] at first
    rw [List.length_drop, width] at second
    rw [text, chars]
    change String.ofList (padded (min 11 13) _ ++ padded (13 - 11) _) = s
    rw [first, second, List.take_append_drop, String.ofList_toList]
  · cases h

/-! ### Sorting -/

/-- **Texts of identifiers sort like identifiers.** The text of one identifier precedes that of
another in code-point order exactly if its time and clock precede those of the other, the time
first. Sorting texts that are read as identifiers gives the texts of the sorted identifiers. -/
theorem text_lt_iff_lex_and_mergeSort :
    (∀ t u : Tid, t.text < u.text ↔
        Prod.Lex (· < ·) (· < ·) (t.timestamp, t.clockId) (u.timestamp, u.clockId)) ∧
      ∀ (texts : List String) (ts : List Tid),
        List.Forall₂ (fun s t => decode s = .ok (some t)) texts ts →
          texts.mergeSort (· ≤ ·) = (ts.mergeSort le).map text := by
  constructor
  · intro t u
    rw [text_lt_text_iff, Prod.lex_def]
  · intro texts ts read
    have written : texts = ts.map text := by
      rw [← List.forall₂_eq_eq_eq, List.forall₂_map_right_iff]
      exact read.imp fun _ _ h => (text_of_decode h).symm
    rw [written]
    refine (List.map_mergeSort ?_).symm
    intro t _ u _
    exact le_eq_decide_text_le t u

/-- Three identifiers of two moments: the clock decides where the times are equal. -/
theorem mergeSort_texts_of_two_moments :
    ∃ t u w : Tid, decode "3jzfcijpj2z2b" = .ok (some t) ∧ decode "3jzfcijpj2z2a" = .ok (some u) ∧
      decode "2jzfcijpj2z2z" = .ok (some w) ∧
      ["3jzfcijpj2z2b", "3jzfcijpj2z2a", "2jzfcijpj2z2z"].mergeSort (· ≤ ·) =
        ([t, u, w].mergeSort le).map text := by
  obtain ⟨t, ht⟩ : ∃ t, decode "3jzfcijpj2z2b" = .ok (some t) := ⟨_, rfl⟩
  obtain ⟨u, hu⟩ : ∃ u, decode "3jzfcijpj2z2a" = .ok (some u) := ⟨_, rfl⟩
  obtain ⟨w, hw⟩ : ∃ w, decode "2jzfcijpj2z2z" = .ok (some w) := ⟨_, rfl⟩
  refine ⟨t, u, w, ht, hu, hw, text_lt_iff_lex_and_mergeSort.2 _ _ ?_⟩
  exact .cons ht (.cons hu (.cons hw .nil))

end Tid

end Lexicon
