import Lexicon.Json.Reader
import Lexicon.Proofs.Decimal.Shortest

/-!
# Numbers are read as they are written

A whole number is written with its digits, a double with those of its shortest decimal. Main
statements: both are read as what was written, up to the first character that cannot belong to a
number.
-/

namespace Lexicon.Json

/-! ### Digits -/

theorem digitsValue_eq (cs : List Char) : digitsValue cs = Nat.ofDigitChars 10 cs 0 := by
  simp [digitsValue, Nat.ofDigitChars_eq_foldl, Nat.mul_comm]

@[simp] theorem digitsValue_toDigits (n : ℕ) : digitsValue (Nat.toDigits 10 n) = n := by
  rw [digitsValue_eq, Nat.ofDigitChars_ten_toDigits]

theorem digitsValue_append (cs ds : List Char) :
    digitsValue (cs ++ ds) = 10 ^ ds.length * digitsValue cs + digitsValue ds := by
  simp only [digitsValue_eq, Nat.ofDigitChars_append]
  rw [Nat.ofDigitChars_eq_ofDigitChars_zero]

@[simp] theorem digitsValue_zero_cons (cs : List Char) :
    digitsValue ('0' :: cs) = digitsValue cs := by
  rw [← List.singleton_append, digitsValue_append, show digitsValue ['0'] = 0 from rfl,
    Nat.mul_zero, Nat.zero_add]

@[simp] theorem digitsValue_replicate_zero (n : ℕ) : digitsValue (List.replicate n '0') = 0 := by
  rw [digitsValue_eq, Nat.ofDigitChars_replicate_zero, Nat.mul_zero]

/-- Every character is a decimal digit. -/
def AllDigits (cs : List Char) : Prop :=
  ∀ c ∈ cs, c.isDigit = true

theorem allDigits_toDigits (n : ℕ) : AllDigits (Nat.toDigits 10 n) :=
  fun _ => Nat.isDigit_of_mem_toDigits (by norm_num) le_rfl

theorem allDigits_replicate_zero (n : ℕ) : AllDigits (List.replicate n '0') := by
  intro c hc
  rw [(List.mem_replicate.mp hc).2]
  rfl

/-- The digits of a positive number do not begin with a zero. -/
theorem head?_toDigits_ne {n : ℕ} (h : 0 < n) : (Nat.toDigits 10 n).head? ≠ some '0' := by
  induction n using Nat.strong_induction_on with
  | _ n ih =>
    by_cases single : n < 10
    · rw [Nat.toDigits_of_lt_base single]
      simpa using h.ne'
    · rw [Nat.toDigits_of_base_le (by norm_num) (not_lt.mp single),
        List.head?_append_of_ne_nil _ Nat.toDigits_ne_nil]
      exact ih (n / 10) (by omega) (by omega)

/-- No digit stands at the beginning. -/
def NoDigit (cs : List Char) : Prop :=
  ∀ c, cs.head? = some c → c.isDigit = false

theorem takeWhile_append {ds rest : List Char} (digits : AllDigits ds) (stop : NoDigit rest) :
    (ds ++ rest).takeWhile Char.isDigit = ds := by
  rw [List.takeWhile_append_of_pos digits]
  cases rest with
  | nil => simp
  | cons c rest => simp [stop c rfl]

/-! ### The parts of a number -/

/-- The digits before the point: a zero alone, or digits that do not begin with one. -/
structure IsWhole (cs : List Char) : Prop where
  proper : cs ≠ []
  digits : AllDigits cs
  zero : cs.head? = some '0' → cs = ['0']

theorem isWhole_zero : IsWhole ['0'] := ⟨by simp, by simp [AllDigits], fun _ => rfl⟩

theorem integerLength_append {cs rest : List Char} (whole : IsWhole cs) (stop : NoDigit rest) :
    integerLength (cs ++ rest) = cs.length := by
  unfold integerLength
  split
  · next heq =>
    cases cs with
    | nil => exact absurd rfl whole.proper
    | cons c cs =>
      obtain rfl : c = '0' := by simpa using (List.cons.inj heq).1
      rw [whole.zero rfl]
      rfl
  · rw [takeWhile_append whole.digits stop]

/-- The digits after the point with the point, if there are any. -/
def fractionText (ds : List Char) : List Char :=
  if ds.isEmpty then [] else '.' :: ds

theorem fractionDigits_append {ds rest : List Char} (digits : AllDigits ds) (stop : NoDigit rest)
    (point : rest.head? ≠ some '.') : fractionDigits (fractionText ds ++ rest) = ds := by
  cases ds with
  | nil =>
    unfold fractionDigits fractionText
    split
    · next heq => simp [show rest = _ from heq] at point
    · rfl
  | cons d ds => simpa [fractionText, fractionDigits] using takeWhile_append digits stop

/-- The digits of an exponent, at least two of them. -/
theorem exists_exponentText (e : ℤ) : ∃ ds, AllDigits ds ∧ ds ≠ [] ∧ digitsValue ds = e.natAbs ∧
    Decimal.exponentText e = 'e' :: (if e < 0 then '-' else '+') :: ds := by
  have digits := allDigits_toDigits e.natAbs
  simp only [Decimal.exponentText]
  by_cases short : (Nat.toDigits 10 e.natAbs).length < 2
  · rw [if_pos short]
    exact ⟨'0' :: Nat.toDigits 10 e.natAbs, List.forall_mem_cons.mpr ⟨rfl, digits⟩, by simp,
      by simp, rfl⟩
  · rw [if_neg short]
    exact ⟨_, digits, Nat.toDigits_ne_nil, digitsValue_toDigits _, rfl⟩

theorem exponentPart?_append (e : ℤ) {rest : List Char} (stop : NoDigit rest) :
    exponentPart? (Decimal.exponentText e ++ rest) =
      some ((Decimal.exponentText e).length, e) := by
  obtain ⟨ds, digits, proper, value, text⟩ := exists_exponentText e
  rw [text]
  by_cases negative : e < 0
  · simp only [if_pos negative, List.cons_append, exponentPart?, takeWhile_append digits stop]
    simp [proper, value, abs_of_neg negative]
  · simp only [if_neg negative, List.cons_append, exponentPart?, takeWhile_append digits stop]
    simp [proper, value, abs_of_nonneg (not_lt.mp negative)]

/-! ### Whole numbers and doubles -/

theorem advance_append (position : ℕ) (cs rest : List Char) :
    Cursor.advance ⟨position, cs ++ rest⟩ cs.length = ⟨position + cs.length, rest⟩ := by
  simp [Cursor.advance]

/-- The sign of a number. -/
def signText (negative : Bool) : List Char :=
  if negative then ['-'] else []

/-- A number consists of a sign, the digits before and after the point, and an exponent. -/
theorem number_append (negative : Bool) {whole fraction exponent rest : List Char} {e : ℤ}
    (position : ℕ) (hwhole : IsWhole whole) (hfraction : AllDigits fraction)
    (hexponent : (exponentPart? (exponent ++ rest)).getD (0, 0) = (exponent.length, e))
    (stop : NoDigit (exponent ++ rest)) (point : (exponent ++ rest).head? ≠ some '.') :
    number ⟨position,
        signText negative ++ (whole ++ (fractionText fraction ++ (exponent ++ rest)))⟩ =
      .ok (if fraction.isEmpty && exponent.length == 0 then
          .int (if negative then -(digitsValue (whole ++ fraction) : ℤ)
            else digitsValue (whole ++ fraction))
        else .float (Binary64.ofDecimal negative (digitsValue (whole ++ fraction))
          (e - fraction.length)),
        ⟨position + (signText negative ++ (whole ++ (fractionText fraction ++ exponent))).length,
          rest⟩) := by
  have stop' : NoDigit (fractionText fraction ++ (exponent ++ rest)) := by
    unfold fractionText
    split_ifs
    · exact stop
    · rintro c ⟨⟩
      rfl
  have sign : ((signText negative ++ (whole ++ (fractionText fraction ++
      (exponent ++ rest)))).head? == some '-') = negative := by
    cases negative with
    | true => rfl
    | false =>
      obtain ⟨c, cs, rfl⟩ := List.exists_cons_of_ne_nil hwhole.proper
      have digit := hwhole.digits c List.mem_cons_self
      have : c ≠ '-' := by
        rintro rfl
        cases digit
      simpa [signText] using this
  have unsigned : (if negative then (signText negative ++ (whole ++ (fractionText fraction ++
      (exponent ++ rest)))).drop 1 else signText negative ++ (whole ++ (fractionText fraction ++
      (exponent ++ rest)))) = whole ++ (fractionText fraction ++ (exponent ++ rest)) := by
    cases negative <;> rfl
  have length : (if fraction.isEmpty then 0 else fraction.length + 1) =
      (fractionText fraction).length := by
    cases fraction <;> rfl
  have signLength : (if negative then 1 else 0) = (signText negative).length := by
    cases negative <;> rfl
  have proper : whole.length ≠ 0 := by simpa using hwhole.proper
  have dropped : (whole ++ (fractionText fraction ++ (exponent ++ rest))).drop
      (whole.length + (fractionText fraction).length) = exponent ++ rest := by
    rw [← List.append_assoc, ← List.length_append, List.drop_left]
  have total : Cursor.advance ⟨position,
      signText negative ++ (whole ++ (fractionText fraction ++ (exponent ++ rest)))⟩
      ((signText negative).length + whole.length + (fractionText fraction).length +
        exponent.length) = ⟨position + (signText negative ++ (whole ++ (fractionText fraction ++
          exponent))).length, rest⟩ := by
    rw [← advance_append]
    simp [Nat.add_assoc]
  simp only [number, sign, unsigned, integerLength_append hwhole stop', if_neg proper,
    List.drop_left, List.take_left, fractionDigits_append hfraction stop point, length, signLength,
    dropped, hexponent, total]
  split_ifs <;> rfl

/-- What may follow a number: nothing that could belong to it. -/
structure Follows (rest : List Char) : Prop where
  digit : NoDigit rest
  point : rest.head? ≠ some '.'
  exponent : exponentPart? rest = none

theorem Follows.without_exponent {rest : List Char} (h : Follows rest) :
    (exponentPart? ([] ++ rest)).getD (0, 0) = (([] : List Char).length, 0) := by
  rw [List.nil_append, h.exponent]
  rfl

/-- A text is read as a number, wherever it stands. -/
def ReadsAs (text : List Char) (v : Value) : Prop :=
  ∀ (position : ℕ) (rest : List Char), Follows rest →
    number ⟨position, text ++ rest⟩ = .ok (v, ⟨position + text.length, rest⟩)

/-- A number begins with its sign or a digit. -/
theorem head?_of_number {cur : Cursor} {r : Value × Cursor} (h : number cur = .ok r) :
    ∃ c, cur.rest.head? = some c ∧ (c = '-' ∨ c.isDigit = true) := by
  by_cases negative : cur.rest.head? = some '-'
  · exact ⟨_, negative, .inl rfl⟩
  · have whole : integerLength cur.rest ≠ 0 := by
      intro none
      simp [number, negative, none, fail] at h
    cases hrest : cur.rest with
    | nil => simp [hrest, integerLength] at whole
    | cons c cs =>
      refine ⟨c, rfl, .inr ?_⟩
      by_contra other
      have zero : c ≠ '0' := by
        rintro rfl
        exact other rfl
      simp [hrest, integerLength, zero, other] at whole

theorem isWhole_toDigits (n : ℕ) : IsWhole (Nat.toDigits 10 n) where
  proper := Nat.toDigits_ne_nil
  digits := allDigits_toDigits n
  zero h := by
    by_cases zero : n = 0
    · rw [zero, Nat.toDigits_zero]
    · exact absurd h (head?_toDigits_ne (Nat.pos_of_ne_zero zero))

theorem toList_toString (n : ℤ) :
    (toString n).toList = signText (n < 0) ++ Nat.toDigits 10 n.natAbs := by
  cases n with
  | ofNat n => simp [signText, toString, Int.repr, Nat.toList_repr]
  | negSucc n => simp [signText, toString, Int.repr, Nat.toList_repr]

theorem readsAs_int (n : ℤ) : ReadsAs (toString n).toList (.int n) := by
  intro position rest follows
  have read := number_append (n < 0) position (isWhole_toDigits n.natAbs)
    (show AllDigits [] from nofun) follows.without_exponent follows.digit follows.point
  have value : (if n < 0 then -|n| else |n|) = n := by
    split_ifs with negative
    · rw [abs_of_neg negative, neg_neg]
    · exact abs_of_nonneg (not_lt.mp negative)
  rw [toList_toString]
  simpa [fractionText, value] using read

theorem readsAs_point (negative : Bool) {whole fraction : List Char} (hwhole : IsWhole whole)
    (hfraction : AllDigits fraction) (proper : fraction ≠ []) :
    ReadsAs (signText negative ++ (whole ++ '.' :: fraction))
      (.float (Binary64.ofDecimal negative (digitsValue (whole ++ fraction))
        (-fraction.length))) := by
  intro position rest follows
  have read := number_append negative position hwhole hfraction follows.without_exponent
    follows.digit follows.point
  simpa [fractionText, proper] using read

theorem readsAs_exponent (negative : Bool) {whole fraction : List Char} (hwhole : IsWhole whole)
    (hfraction : AllDigits fraction) (e : ℤ) :
    ReadsAs (signText negative ++ (whole ++ (fractionText fraction ++ Decimal.exponentText e)))
      (.float (Binary64.ofDecimal negative (digitsValue (whole ++ fraction))
        (e - fraction.length))) := by
  intro position rest follows
  have read := number_append negative position hwhole hfraction
    (congrArg (Option.getD · (0, 0)) (exponentPart?_append e follows.digit)) ?_ ?_
  · simpa [Decimal.exponentText] using read
  · rintro c ⟨⟩
    rfl
  · simp [Decimal.exponentText]

/-- Digits that begin like those of a positive number. -/
theorem isWhole_of_head {n : ℕ} (h : 0 < n) {c : Char} {cs : List Char}
    (digits : AllDigits (c :: cs)) (head : (Nat.toDigits 10 n).head? = some c) :
    IsWhole (c :: cs) := by
  refine ⟨by simp, digits, fun zero => ?_⟩
  rw [Option.some.inj (show some c = some '0' from zero)] at head
  exact absurd head (head?_toDigits_ne h)

/-- Zeros after digits count, a zero after the point does not. -/
theorem digitsValue_padded (cs : List Char) (j : ℕ) :
    (digitsValue (cs ++ List.replicate j '0' ++ ['0']) : ℚ) * 10 ^ (-1 : ℤ) =
      digitsValue cs * 10 ^ j := by
  rw [digitsValue_append, digitsValue_append, digitsValue_replicate_zero, List.length_replicate,
    show digitsValue ['0'] = 0 from rfl, Nat.add_zero, Nat.add_zero, zpow_neg, zpow_one]
  push_cast [List.length_singleton]
  field_simp

/-- The text of a positive decimal in positional notation, with the value of its digits. -/
theorem exists_positional {n : ℕ} (h : 0 < n) {e : ℤ} (low : -350 ≤ e) :
    ∃ whole fraction, IsWhole whole ∧ AllDigits fraction ∧ fraction ≠ [] ∧
      Decimal.positional (Nat.toDigits 10 n) ((Nat.toDigits 10 n).length + e) =
        whole ++ '.' :: fraction ∧
      -400 ≤ -(fraction.length : ℤ) ∧
      (digitsValue (whole ++ fraction) : ℚ) * 10 ^ (-(fraction.length : ℤ)) = n * 10 ^ e := by
  have digits := allDigits_toDigits n
  have value := digitsValue_toDigits n
  obtain ⟨c, cs, hD⟩ := List.exists_cons_of_ne_nil (Nat.toDigits_ne_nil (n := n) (b := 10))
  have head : (Nat.toDigits 10 n).head? = some c := by rw [hD]; rfl
  generalize hp : ((Nat.toDigits 10 n).length : ℤ) + e = point
  rw [hD] at digits value hp ⊢
  match point, hp with
  | .ofNat 0, hp => -- every digit after the point
    have hlen : -((c :: cs).length : ℤ) = e := by simp at hp ⊢; omega
    refine ⟨['0'], c :: cs, isWhole_zero, digits, by simp, rfl, by omega, ?_⟩
    rw [List.singleton_append, digitsValue_zero_cons, value, hlen]
  | .negSucc k, hp => -- zeros between the point and the digits
    have hlen : -((List.replicate (k + 1) '0' ++ c :: cs).length : ℤ) = e := by
      simp at hp ⊢
      omega
    refine ⟨['0'], List.replicate (k + 1) '0' ++ c :: cs, isWhole_zero, ?_, by simp, rfl, by omega,
      ?_⟩
    · exact List.forall_mem_append.mpr ⟨allDigits_replicate_zero _, digits⟩
    · rw [List.singleton_append, digitsValue_zero_cons, digitsValue_append,
        digitsValue_replicate_zero, Nat.mul_zero, Nat.zero_add, value, hlen]
  | .ofNat (k + 1), hp => -- zeros between the digits and the point, or the point among the digits
    by_cases short : (c :: cs).length ≤ k + 1
    · refine ⟨c :: cs ++ List.replicate (k + 1 - (c :: cs).length) '0', ['0'], ?_,
        by simp [AllDigits], by simp, ?_, by simp, ?_⟩
      · exact isWhole_of_head h (List.forall_mem_append.mpr ⟨digits, allDigits_replicate_zero _⟩)
          head
      · simp only [Decimal.positional, if_pos short]
      · have shift : ((k + 1 - (c :: cs).length : ℕ) : ℤ) = e := by
          simp only [Int.ofNat_eq_natCast] at hp
          omega
        rw [← shift, zpow_natCast, ← value]
        exact digitsValue_padded _ _
    · have shorter : (((c :: cs).drop (k + 1)).length : ℤ) = -e := by
        simp only [Int.ofNat_eq_natCast] at hp
        rw [List.length_drop]
        omega
      have split := List.take_append_drop (k + 1) (c :: cs)
      refine ⟨(c :: cs).take (k + 1), (c :: cs).drop (k + 1), ?_, ?_, ?_, ?_, by omega, ?_⟩
      · have first : AllDigits ((c :: cs).take (k + 1)) :=
          fun d hd => digits d (List.mem_of_mem_take hd)
        exact isWhole_of_head h first head
      · exact fun d hd => digits d (List.mem_of_mem_drop hd)
      · exact fun none => short (List.drop_eq_nil_iff.mp none)
      · simp only [Decimal.positional, if_neg short]
      · rw [split, value, shorter, neg_neg]

/-- The digits of a number in scientific notation, without the exponent. -/
theorem significandText_eq (ds : List Char) :
    (if ds.length < 2 then ds else ds.take 1 ++ '.' :: ds.drop 1) =
      ds.take 1 ++ fractionText (ds.drop 1) := by
  match ds with
  | [] | [_] | _ :: _ :: _ => simp [fractionText]

/-- The text of a finite double. -/
theorem toList_render (style : Decimal.Style) {x : Binary64} (finite : x.isFinite = true)
    {n : ℕ} {e : ℤ} (h : Decimal.shortest x = ⟨n, e⟩) :
    (style.render x).toList = signText x.isNegative ++
      if n = 0 then ['0', '.', '0']
      else if style.low ≤ (Nat.toDigits 10 n).length + e - 1 ∧
          (Nat.toDigits 10 n).length + e - 1 < style.high then
        Decimal.positional (Nat.toDigits 10 n) ((Nat.toDigits 10 n).length + e)
      else (Nat.toDigits 10 n).take 1 ++ (fractionText ((Nat.toDigits 10 n).drop 1) ++
        Decimal.exponentText ((Nat.toDigits 10 n).length + e - 1)) := by
  have defined : x.isUndefined = false := by
    simp only [Binary64.isFinite, bne_iff_ne] at finite
    simp [Binary64.isUndefined, finite]
  simp only [Decimal.Style.render, defined, finite, h, significandText_eq, signText,
    Bool.and_eq_true, decide_eq_true_eq, Bool.not_true, Bool.false_eq_true, if_false]
  split_ifs <;> simp

/-- A finite double is read as it is written. -/
theorem readsAs_render (style : Decimal.Style) {x : Binary64} (finite : x.isFinite = true) :
    ReadsAs (style.render x).toList (.float x) := by
  by_cases positive : 0 < x.size
  · obtain ⟨proper, low, high, -⟩ := Decimal.shortest_spec finite positive
    generalize hs : Decimal.shortest x = s at proper low high
    obtain ⟨n, e⟩ := s
    have same {digits : ℕ} {e' : ℤ} (low : -400 ≤ e') (high : e' ≤ 400)
        (value : (digits : ℚ) * 10 ^ e' = n * 10 ^ e) :
        Binary64.ofDecimal x.isNegative digits e' = x :=
      Decimal.ofDecimal_eq_self finite positive low high (by rw [value, hs])
    dsimp only at proper low high
    rw [toList_render style finite hs, if_neg proper.ne']
    split_ifs with small
    · obtain ⟨whole, fraction, hwhole, hfraction, some, text, bound, value⟩ :=
        exists_positional proper low
      have read := readsAs_point x.isNegative hwhole hfraction some
      rw [same bound (by omega) value] at read
      rwa [text]
    · have digits := allDigits_toDigits n
      have value : digitsValue _ = n := digitsValue_toDigits n
      have head : ∀ c, (Nat.toDigits 10 n).head? = some c → IsWhole [c] := fun c hc =>
        isWhole_of_head proper (by simpa [AllDigits] using digits c (List.mem_of_mem_head? hc)) hc
      obtain ⟨c, cs, hD⟩ := List.exists_cons_of_ne_nil (Nat.toDigits_ne_nil (n := n) (b := 10))
      rw [hD] at digits head value ⊢
      have exponent : ((c :: cs).length + e - 1 : ℤ) - cs.length = e := by
        rw [List.length_cons]
        push_cast
        ring
      have read := readsAs_exponent x.isNegative (head c rfl)
        (List.forall_mem_cons.mp digits).2 ((c :: cs).length + e - 1)
      rwa [show digitsValue ([c] ++ cs) = n from value, exponent,
        same (by omega) (by omega) rfl] at read
  · obtain ⟨num, zero⟩ := Decimal.eq_zero_of_size positive
    have shortest : Decimal.shortest x = ⟨0, 0⟩ := by simp [Decimal.shortest, num]
    have read := readsAs_point x.isNegative isWhole_zero isWhole_zero.digits (by simp)
    have value : Binary64.ofDecimal x.isNegative 0 (-1) = x := zero
    rw [toList_render style finite shortest, if_pos rfl]
    simpa [digitsValue, value] using read

end Lexicon.Json
