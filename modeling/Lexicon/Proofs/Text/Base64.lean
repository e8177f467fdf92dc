import Lexicon.Text.Base64
import Lexicon.Proofs.Outcome

/-!
# Reading what was written in base 64

Each six-bit number is found again from its character, and bytes from their six-bit numbers. The
standard form fills the last group of four characters with padding; the form written here leaves it
out. Main statement: reading undoes writing, with any part of the padding there or missing.
-/

namespace Lexicon.Text.Base64

/-- A character that is written is no padding, and its number is found again. -/
private theorem digit_spec : ∀ n < 64, digit n ≠ '=' ∧ value? (digit n) = some n := by
  unfold value? digit alphabet
  rw [String.toList_ofList]
  decide

theorem lt_of_mem_sextets {bytes : List UInt8} {n : Nat} (h : n ∈ sextets bytes) : n < 64 := by
  fun_induction sextets bytes with
  | case1 => simp at h
  | case2 a =>
    have ha := a.toNat_lt
    simp only [List.mem_cons, List.not_mem_nil, or_false] at h
    omega
  | case3 a b =>
    have ha := a.toNat_lt
    have hb := b.toNat_lt
    simp only [List.mem_cons, List.not_mem_nil, or_false] at h
    omega
  | case4 a b c rest ih =>
    have ha := a.toNat_lt
    have hb := b.toNat_lt
    have hc := c.toNat_lt
    simp only [List.mem_cons] at h
    rcases h with h | h | h | h | h
    · omega
    · omega
    · omega
    · omega
    · exact ih h

/-- How many padding characters the standard form of bytes has: one for each byte that the last
group of three lacks. -/
def padding (bytes : List UInt8) : Nat :=
  (3 - bytes.length % 3) % 3

theorem padding_lt (bytes : List UInt8) : padding bytes < 3 :=
  Nat.mod_lt _ (by decide)

/-- Padding fills the last group of four. -/
theorem length_sextets_add_padding (bytes : List UInt8) :
    ((sextets bytes).length + padding bytes) % 4 = 0 := by
  fun_induction sextets bytes with
  | case1 => rfl
  | case2 => simp [padding]
  | case3 => simp [padding]
  | case4 a b c rest ih =>
    simp only [padding, List.length_cons] at ih ⊢
    omega

private theorem ofNat_eq {n : Nat} {a : UInt8} (h : n = a.toNat) : UInt8.ofNat n = a := by
  rw [h, UInt8.ofNat_toNat]

theorem ofSextets_sextets (bytes : List UInt8) : ofSextets (sextets bytes) = bytes := by
  fun_induction sextets bytes with
  | case1 => rfl
  | case2 a =>
    have first : a.toNat / 4 * 4 + a.toNat % 4 * 16 / 16 = a.toNat := by omega
    rw [ofSextets, ofNat_eq first]
  | case3 a b =>
    have hb := b.toNat_lt
    have first : a.toNat / 4 * 4 + (a.toNat % 4 * 16 + b.toNat / 16) / 16 = a.toNat := by omega
    have second : (a.toNat % 4 * 16 + b.toNat / 16) % 16 * 16 + b.toNat % 16 * 4 / 4 = b.toNat := by
      omega
    rw [ofSextets, ofNat_eq first, ofNat_eq second]
  | case4 a b c rest ih =>
    have hb := b.toNat_lt
    have hc := c.toNat_lt
    have first : a.toNat / 4 * 4 + (a.toNat % 4 * 16 + b.toNat / 16) / 16 = a.toNat := by omega
    have second : (a.toNat % 4 * 16 + b.toNat / 16) % 16 * 16 +
        (b.toNat % 16 * 4 + c.toNat / 64) / 4 = b.toNat := by omega
    have third : (b.toNat % 16 * 4 + c.toNat / 64) % 4 * 64 + c.toNat % 64 = c.toNat := by omega
    rw [ofSextets, ofNat_eq first, ofNat_eq second, ofNat_eq third, ih]

private theorem mapM_value? {ns : List Nat} (h : ∀ n ∈ ns, n < 64) :
    (ns.map digit).mapM value? = some ns := by
  induction ns with
  | nil => rfl
  | cons n rest ih =>
    have first := (digit_spec n (h n List.mem_cons_self)).2
    have others := ih fun m hm => h m (List.mem_cons_of_mem _ hm)
    simp [first, others]

private theorem paddingFits_padding {bytes : List UInt8} {n : Nat}
    (h : (n + padding bytes) % 4 = 0) : paddingFits n (padding bytes) = true := by
  have small := padding_lt bytes
  have cases : n % 4 = 0 ∧ padding bytes = 0 ∨ n % 4 = 2 ∧ padding bytes = 2 ∨
      n % 4 = 3 ∧ padding bytes = 1 := by omega
  rcases cases with ⟨h, hp⟩ | ⟨h, hp⟩ | ⟨h, hp⟩ <;> simp [paddingFits, h, hp]

/-- The written form holds no padding. -/
theorem notMem_encode (bytes : List UInt8) : '=' ∉ encode bytes := by
  intro h
  obtain ⟨n, hn, hd⟩ := List.mem_map.mp h
  exact (digit_spec n (lt_of_mem_sextets hn)).1 hd

theorem length_encode (bytes : List UInt8) : (encode bytes).length = (sextets bytes).length :=
  List.length_map _

/-- A text with part of its padding is filled up to the one with all of it. -/
private theorem filled_encode {bytes : List UInt8} {k : Nat} (hk : k ≤ padding bytes) :
    k + (4 - (encode bytes ++ List.replicate k '=').length % 4) % 4 = padding bytes := by
  have whole := length_sextets_add_padding bytes
  have small := padding_lt bytes
  rw [List.length_append, List.length_replicate, length_encode]
  omega

/-- Bytes that were written are read again, also when some or all of the standard padding has been
added. -/
theorem decode?_encode_append {bytes : List UInt8} {k : Nat} (hk : k ≤ padding bytes) :
    decode? (encode bytes ++ List.replicate k '=') = some bytes := by
  have digits : ∀ c ∈ encode bytes, (c != '=') = true := by
    rintro c hc
    exact bne_iff_ne.mpr fun h => notMem_encode bytes (h ▸ hc)
  have cut (n : Nat) :
      (encode bytes ++ List.replicate n '=').takeWhile (· != '=') = encode bytes ∧
        (encode bytes ++ List.replicate n '=').dropWhile (· != '=') = List.replicate n '=' := by
    rw [List.takeWhile_append_of_pos digits, List.dropWhile_append_of_pos digits]
    cases n <;> simp [List.replicate_succ]
  have filled : encode bytes ++ List.replicate k '=' ++ List.replicate
      ((4 - (encode bytes ++ List.replicate k '=').length % 4) % 4) '=' =
        encode bytes ++ List.replicate (padding bytes) '=' := by
    rw [List.append_assoc, List.replicate_append_replicate, filled_encode hk]
  have fits : paddingFits (encode bytes).length (padding bytes) = true :=
    paddingFits_padding (length_encode bytes ▸ length_sextets_add_padding bytes)
  have read : (encode bytes).mapM value? = some (sextets bytes) :=
    mapM_value? fun n hn => lt_of_mem_sextets hn
  simp only [decode?, filled, cut, List.length_replicate, fits, Bool.and_true]
  rw [if_pos (by simp), read, Option.map_some, ofSextets_sextets]

/-- Bytes that were written are read again. -/
theorem decode?_encode (bytes : List UInt8) : decode? (encode bytes) = some bytes := by
  have bare := decode?_encode_append (Nat.zero_le (padding bytes))
  rwa [List.replicate_zero, List.append_nil] at bare

/-- Different bytes have different written forms. -/
theorem encode_injective : Function.Injective encode := by
  intro a b h
  have read := decode?_encode a
  rw [h, decode?_encode] at read
  exact (Option.some.inj read).symm

end Lexicon.Text.Base64
