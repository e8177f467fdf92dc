import Lexicon.Proofs.Identifier.Sorting
import Mathlib.Data.Nat.Digits.Lemmas

/-!
# Numerals of sortable base 32

Each digit counts units of thirty-two times the units of the digit after it. Main statement: every
number has exactly one numeral without leading zero digits, other numerals of it differ in those
only, and numerals of one length sort like their numbers.
-/

namespace Lexicon

namespace Base32

variable {cs ds : List Char} {n m : Nat}

/-! ### Units -/

/-- The shortest numeral has the digits of the number to the base 32, the highest first. -/
theorem encode_eq_reverse_digits (n : Nat) :
    encode n = ((Nat.digits 32 n).map digit).reverse := by
  induction n using encode.induct with
  | case1 => simp
  | case2 n nonzero ih =>
    rw [encode, if_neg nonzero, ih, Nat.digits_eq_cons_digits_div (by decide) nonzero,
      List.map_cons, List.reverse_cons]

/-- A row of digits is read by its units. The induction is on the digits from the last one on. -/
theorem decode_reverse_digits {values : List Nat} (small : ∀ d ∈ values, d < 32) :
    decode (values.map digit).reverse = .ok (Nat.ofDigits 32 values) := by
  induction values with
  | nil => rfl
  | cons d rest ih =>
    obtain ⟨hd, hrest⟩ := List.forall_mem_cons.mp small
    rw [List.map_cons, List.reverse_cons, decode_concat (ih hrest) (value?_digit d hd),
      Nat.ofDigits_cons, Nat.add_comm, Nat.mul_comm]

theorem decode_encode (n : Nat) : decode (encode n) = .ok n := by
  rw [encode_eq_reverse_digits, decode_reverse_digits fun _ => Nat.digits_lt_base (by decide),
    Nat.ofDigits_digits]

theorem lt_of_decode (h : decode cs = .ok n) : n < 32 ^ cs.length := by
  simpa using lt_of_decodeFrom (mem_alphabet_of_decodeFrom h) h

/-! ### Leading zero digits -/

theorem digit_eq_two_iff {d : Nat} (small : d < 32) : digit d = '2' ↔ d = 0 := by
  constructor
  · intro h
    have read := value?_digit d small
    rw [h, ← digit_zero, value?_digit 0 (by decide)] at read
    exact (Option.some.inj read).symm
  · rintro rfl
    exact digit_zero

/-- The shortest numeral does not begin with a zero digit. -/
theorem head?_encode_ne (n : Nat) : (encode n).head? ≠ some '2' := by
  by_cases zero : n = 0
  · rw [zero, encode_zero]
    exact nofun
  · have nonempty : Nat.digits 32 n ≠ [] := Nat.digits_ne_nil_iff_ne_zero.mpr zero
    have small : (Nat.digits 32 n).getLast nonempty < 32 :=
      Nat.digits_lt_base (by decide) (List.getLast_mem nonempty)
    rw [encode_eq_reverse_digits, List.head?_reverse, List.getLast?_map,
      List.getLast?_eq_some_getLast nonempty, Option.map_some, ne_eq, Option.some.injEq,
      digit_eq_two_iff small]
    exact Nat.getLast_digit_ne_zero 32 zero

/-- A numeral differs from the shortest one in leading zero digits only. -/
theorem encode_of_decode (h : decode cs = .ok n) : encode n = cs.dropWhile (· == '2') := by
  have zeros : ∀ c ∈ List.replicate (cs.length - (encode n).length) '2', (c == '2') = true :=
    fun c hc => beq_iff_eq.mpr (List.eq_of_mem_replicate hc)
  have shortest : (encode n).dropWhile (· == '2') = encode n := by
    have front := head?_encode_ne n
    cases h : encode n with
    | nil => rfl
    | cons c rest =>
      rw [h, List.head?_cons, ne_eq, Option.some.injEq] at front
      rw [List.dropWhile_cons_of_neg (by simpa using front)]
  -- the row of digits is the numeral of its own width: zero digits before the shortest one
  calc encode n = (Tid.padded cs.length (encode n)).dropWhile (· == '2') := by
        rw [Tid.padded, List.dropWhile_append_of_pos zeros, shortest]
    _ = cs.dropWhile (· == '2') := by rw [Tid.padded_encode_of_decode h]

/-! ### Foreign characters -/

/-- Reading stops at the first character that is no digit. -/
theorem decodeFrom_eq_error_iff {c : Char} :
    decodeFrom n cs = .error c ↔ cs.find? (· ∉ alphabet) = some c := by
  induction cs generalizing n with
  | nil => simp [decodeFrom]
  | cons a rest ih =>
    rw [decodeFrom, List.find?_cons]
    cases ha : value? a with
    | none =>
      have foreign : a ∉ alphabet := List.idxOf?_eq_none_iff.mp ha
      simp [foreign]
    | some d =>
      have digit : a ∈ alphabet := mem_alphabet_of_value? ha
      simpa [digit] using ih

/-! ### Order -/

/-- Numerals of one length sort like their numbers. -/
theorem lt_iff_of_decode (length : cs.length = ds.length) (hn : decode cs = .ok n)
    (hm : decode ds = .ok m) : cs < ds ↔ n < m := by
  have second := lt_of_decode hm
  rw [← length] at second
  have sorted := Tid.padded_encode_lt_iff (lt_of_decode hn) second
  rwa [Tid.padded_encode_of_decode hn, length, Tid.padded_encode_of_decode hm] at sorted

/-! ### Texts of numerals -/

variable {s t : String}

theorem write_natCast (n : Nat) : write n = .ok (String.ofList (encode n)) := by
  rw [write, if_neg (by omega), Int.toNat_natCast]

theorem read_eq_ok_iff : read s = .ok n ↔ decode s.toList = .ok n := by
  rw [read]
  cases decode s.toList <;> simp [Except.mapError]

theorem read_eq_error_iff {fault : Fault} :
    read s = .error fault ↔
      ∃ c, s.toList.find? (· ∉ alphabet) = some c ∧ fault = .argument (.foreignCharacter c s) := by
  simp only [← decodeFrom_eq_error_iff (n := 0)]
  rw [read, decode]
  cases decodeFrom 0 s.toList <;> simp [Except.mapError, eq_comm]

/-- Rows of digits can be read. -/
theorem exists_read (digits : ∀ c ∈ s.toList, c ∈ alphabet) : ∃ n, read s = .ok n := by
  obtain ⟨n, hn, -⟩ := Tid.exists_padded_encode s.toList digits
  exact ⟨n, read_eq_ok_iff.mpr hn⟩

theorem exists_read_error_iff :
    (∃ fault, read s = .error fault) ↔ ∃ c ∈ s.toList, c ∉ alphabet := by
  simp only [read_eq_error_iff]
  constructor
  · rintro ⟨-, c, first, -⟩
    exact ⟨c, List.mem_of_find?_eq_some first, by simpa using List.find?_some first⟩
  · rintro ⟨c, mem, foreign⟩
    have found : (s.toList.find? (· ∉ alphabet)).isSome :=
      List.find?_isSome.mpr ⟨c, mem, by simpa using foreign⟩
    obtain ⟨first, hfirst⟩ := Option.isSome_iff_exists.mp found
    exact ⟨_, first, hfirst, rfl⟩

theorem lt_iff_of_read (length : s.length = t.length) (hn : read s = .ok n)
    (hm : read t = .ok m) : s < t ↔ n < m := by
  rw [← String.length_toList, ← String.length_toList] at length
  rw [String.lt_iff_toList_lt]
  exact lt_iff_of_decode length (read_eq_ok_iff.mp hn) (read_eq_ok_iff.mp hm)

/-- The values of digits, the highest first, are read by their units. -/
theorem read_digits {values : List Nat} (small : ∀ d ∈ values, d < 32) :
    read (String.ofList (values.map digit)) = .ok (Nat.ofDigits 32 values.reverse) := by
  have reversed : decode (values.reverse.map digit).reverse =
      .ok (Nat.ofDigits 32 values.reverse) :=
    decode_reverse_digits fun d hd => small d (List.mem_reverse.mp hd)
  rw [← List.map_reverse, List.reverse_reverse] at reversed
  rw [read_eq_ok_iff, String.toList_ofList, reversed]

/-- **Sortable base 32 is a positional numeral system.** The digits of a numeral count powers of 32,
the last one units. Every number has a numeral that does not begin with a zero digit and is read as
the number. Every row of digits is read as a number, whose numeral is the row without its leading
zero digits. Reading fails exactly if a character is no digit, at the first such character. Two rows
of digits of one length are in code-point order exactly if their numbers are in order. -/
theorem positional :
    (∀ values : List Nat, (∀ d ∈ values, d < 32) →
        read (String.ofList (values.map digit)) = .ok (Nat.ofDigits 32 values.reverse)) ∧
      (∀ n : Nat, ∃ s, write n = .ok s ∧ read s = .ok n ∧ s.toList.head? ≠ some '2') ∧
      (∀ s : String, (∀ c ∈ s.toList, c ∈ alphabet) →
        ∃ n, read s = .ok n ∧ write n = .ok (String.ofList (s.toList.dropWhile (· == '2')))) ∧
      (∀ s : String,
        ((∃ fault, read s = .error fault) ↔ ∃ c ∈ s.toList, c ∉ alphabet) ∧
          ∀ fault, read s = .error fault ↔
            ∃ c, s.toList.find? (· ∉ alphabet) = some c ∧
              fault = .argument (.foreignCharacter c s)) ∧
      ∀ s t : String, s.length = t.length → (∀ c ∈ s.toList, c ∈ alphabet) →
        (∀ c ∈ t.toList, c ∈ alphabet) →
          ∃ n m, read s = .ok n ∧ read t = .ok m ∧ (s < t ↔ n < m) := by
  refine ⟨fun _ => read_digits, fun n => ?_, fun s digits => ?_, fun s => ?_, ?_⟩
  · have whole : read (String.ofList (encode n)) = .ok n := by
      rw [read_eq_ok_iff, String.toList_ofList, decode_encode]
    refine ⟨_, write_natCast n, whole, ?_⟩
    rw [String.toList_ofList]
    exact head?_encode_ne n
  · obtain ⟨n, hn⟩ := exists_read digits
    refine ⟨n, hn, ?_⟩
    rw [write_natCast, encode_of_decode (read_eq_ok_iff.mp hn)]
  · exact ⟨exists_read_error_iff, fun _ => read_eq_error_iff⟩
  · intro s t length first second
    obtain ⟨n, hn⟩ := exists_read first
    obtain ⟨m, hm⟩ := exists_read second
    exact ⟨n, m, hn, hm, lt_iff_of_read length hn hm⟩

/-- The numeral of 32 with two more zero digits, and the carry from 31 to 32. -/
theorem positional_carry :
    read (String.ofList ([1, 0].map digit)) = .ok (Nat.ofDigits 32 [0, 1]) ∧
      (read "2232" = .ok 32 ∧ write 32 = .ok "32") ∧
      read "2z" = .ok 31 ∧ read "32" = .ok 32 ∧ "2z" < "32" := by
  obtain ⟨units, -, shortest, -, sorted⟩ := positional
  have carry : read "32" = .ok 32 := rfl
  obtain ⟨n, hn, written⟩ := shortest "2232" (List.all_iff_forall_prop.mp (by decide))
  obtain rfl : n = 32 := Except.ok.inj (hn.symm.trans rfl)
  obtain ⟨m, k, hm, hk, order⟩ := sorted "2z" "32" rfl (List.all_iff_forall_prop.mp (by decide))
    (List.all_iff_forall_prop.mp (by decide))
  obtain rfl : m = 31 := Except.ok.inj (hm.symm.trans rfl)
  obtain rfl : k = 32 := Except.ok.inj (hk.symm.trans carry)
  exact ⟨units [1, 0] (by decide), ⟨hn, written⟩, hm, carry, order.mpr (by decide)⟩

end Base32

/-- Each of the two parts of an identifier is read like the text of a numeral. -/
theorem Tid.readDigits_eq_read (cs : List Char) :
    readDigits cs = Base32.read (String.ofList cs) := by
  rw [readDigits, Base32.read, String.toList_ofList]
  cases Base32.decode cs <;> rfl

end Lexicon
