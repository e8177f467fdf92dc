import Lexicon.Format.Datetime
import Lexicon.Proofs.Calendar
import Mathlib.Algebra.Group.Nat.Defs
import Mathlib.Data.List.TakeWhile
import Mathlib.Tactic.Ring

/-!
# Datetimes as they are written

A datetime is written from the numbers of its date and its time of day, the digits of a fraction of
a second, and a zone. Main statement: a text is a datetime exactly if it is written so, in one way
only, from a date and a time of day that exist and an offset of less than a day; and it keeps to
RFC 3339 exactly if the digits of the fraction are those of ASCII and the minutes of the offset make
no hour.
-/

namespace Lexicon.Datetime

/-! ### Writing -/

/-- A number in a fixed number of decimal places. -/
def numeral : Nat → Nat → List Char
  | 0, _ => []
  | places + 1, n => Nat.digitChar (n / 10 ^ places) :: numeral places (n % 10 ^ places)

/-- Hours and minutes with a colon between them. -/
def clock (hours minutes : Nat) : List Char :=
  numeral 2 hours ++ ':' :: numeral 2 minutes

/-- The side of UTC on which a zone lies. -/
inductive Side
  | ahead | behind
  deriving DecidableEq, Repr

namespace Side

/-- The sign of a side. -/
def sign : Side → Char
  | ahead => '+'
  | behind => '-'

/-- So many minutes on a side. -/
def minutes : Side → Nat → Int
  | ahead, n => n
  | behind, n => -n

end Side

/-- A zone as it is written. -/
inductive Zone
  | utc
  | offset (side : Side) (hours minutes : Nat)
  deriving DecidableEq, Repr

namespace Zone

/-- The characters of a zone. -/
def chars : Zone → List Char
  | utc => ['Z']
  | offset side hours minutes => side.sign :: clock hours minutes

/-- How many minutes a zone is ahead of UTC. -/
def inMinutes : Zone → Int
  | utc => 0
  | offset side hours minutes => side.minutes (hours * 60 + minutes)

/-- Whether a zone is written `-00:00`. -/
def IsUnknown (z : Zone) : Prop :=
  z = offset .behind 0 0

/-- A zone of RFC 3339 that is known. -/
def Standard : Zone → Prop
  | utc => True
  | offset side hours minutes =>
    hours ≤ 23 ∧ minutes ≤ 59 ∧ ¬IsUnknown (offset side hours minutes)

/-- A known zone of two places each for hours and minutes that is less than a day from UTC. -/
def Taken : Zone → Prop
  | utc => True
  | offset side hours minutes =>
    minutes ≤ 99 ∧ hours * 60 + minutes < 24 * 60 ∧ ¬IsUnknown (offset side hours minutes)

/-- Whether the minutes that are written make no hour. -/
def MinutesFit : Zone → Prop
  | utc => True
  | offset _ _ minutes => minutes ≤ 59

end Zone

/-- A fraction of a second: nothing, or its digits after a point. -/
def point : List Char → List Char
  | [] => []
  | digits => '.' :: digits

/-- What a datetime is written from. -/
structure Written where
  date : Calendar.Date
  hour : Nat
  minute : Nat
  second : Nat
  /-- The digits of the fraction of a second, if there are any. -/
  fraction : List Char
  zone : Zone
  deriving DecidableEq, Repr

namespace Written

/-- The form `YYYY-MM-DDThh:mm:ss` with an optional fraction and a zone. -/
def chars (w : Written) : List Char :=
  numeral 4 w.date.year ++ '-' :: (numeral 2 w.date.month ++ '-' :: (numeral 2 w.date.day ++
    'T' :: (numeral 2 w.hour ++ ':' :: (numeral 2 w.minute ++ ':' :: (numeral 2 w.second ++
      (point w.fraction ++ w.zone.chars))))))

/-- What is said, the fraction apart. -/
def parts (w : Written) : Parts :=
  ⟨w.date, w.hour, w.minute, w.second, w.zone.inMinutes⟩

/-- The numbers fit into their places. -/
structure Fits (w : Written) : Prop where
  year : w.date.year < 10 ^ 4
  month : w.date.month < 10 ^ 2
  day : w.date.day < 10 ^ 2
  hour : w.hour < 10 ^ 2
  minute : w.minute < 10 ^ 2
  second : w.second < 10 ^ 2

/-- The date is one of the Gregorian calendar in the years up to 9999, and so is the time of day. -/
structure Real (w : Written) : Prop where
  date : w.date.Exists
  year : w.date.year ≤ 9999
  hour : w.hour ≤ 23
  minute : w.minute ≤ 59
  second : w.second ≤ 59

end Written

/-- The digits of a fraction are those of ASCII up to the sixth. -/
def FractionTaken (digits : List Char) : Prop :=
  (digits.take 6).all Char.isDigit = true ∧ (digits.drop 6).all Text.isDecimal = true

namespace Written

/-- A datetime with a known zone as RFC 3339 has it, leap seconds apart. -/
structure Standard (w : Written) : Prop where
  real : w.Real
  fraction : w.fraction.all Char.isDigit = true
  zone : w.zone.Standard

/-- What is taken for a datetime. -/
structure Taken (w : Written) : Prop where
  real : w.Real
  fraction : FractionTaken w.fraction
  zone : w.zone.Taken

end Written

variable {cs rest : List Char} {w w' : Written} {z z' : Zone}

/-! ### Numbers -/

theorem digitChar_of_isDigit {c : Char} (h : c.isDigit = true) :
    c.toNat - 0x30 < 10 ∧ Nat.digitChar (c.toNat - 0x30) = c := by
  have bounds : 48 ≤ c.toNat ∧ c.toNat ≤ 57 := by
    simpa [Char.isDigit, UInt32.le_iff_toNat_le] using h
  have small : c.toNat - 0x30 < 10 := by omega
  refine ⟨small, Char.toNat_inj.mp ?_⟩
  rw [Nat.toNat_digitChar_of_lt_ten small]
  omega

/-- Reading a number goes on from what was read before it exactly if the number stands in front. -/
theorem digits?_eq_some_iff {places m v : Nat} :
    digits? places m cs = some (v, rest) ↔
      ∃ n < 10 ^ places, v = m * 10 ^ places + n ∧ cs = numeral places n ++ rest := by
  induction places generalizing m cs with
  | zero =>
    rw [digits?, Option.some.injEq, Prod.mk.injEq]
    constructor
    · rintro ⟨rfl, rfl⟩
      exact ⟨0, by decide, by simp, rfl⟩
    · rintro ⟨n, lt, rfl, rfl⟩
      obtain rfl : n = 0 := by omega
      exact ⟨by simp, rfl⟩
  | succ places ih =>
    have pos : 0 < 10 ^ places := Nat.pow_pos (by decide)
    constructor
    · intro h
      cases cs with
      | nil => cases h
      | cons c cs =>
        rw [digits?] at h
        split_ifs at h with digit
        obtain ⟨n, lt, rfl, rfl⟩ := ih.mp h
        obtain ⟨small, char⟩ := digitChar_of_isDigit digit
        generalize c.toNat - 0x30 = d at small char
        have quotient : (d * 10 ^ places + n) / 10 ^ places = d := by
          rw [Nat.add_comm, Nat.add_mul_div_right _ _ pos, Nat.div_eq_of_lt lt, Nat.zero_add]
        have remainder : (d * 10 ^ places + n) % 10 ^ places = n := by
          rw [Nat.add_comm, Nat.add_mul_mod_self_right, Nat.mod_eq_of_lt lt]
        refine ⟨d * 10 ^ places + n, ?_, by ring, ?_⟩
        · have le : d * 10 ^ places ≤ 9 * 10 ^ places := Nat.mul_le_mul_right _ (by omega)
          rw [Nat.pow_succ]
          omega
        · rw [numeral, quotient, remainder, char, List.cons_append]
    · rintro ⟨n, lt, rfl, rfl⟩
      have small : n / 10 ^ places < 10 := Nat.div_lt_of_lt_mul (by rwa [Nat.pow_succ] at lt)
      have digit : (Nat.digitChar (n / 10 ^ places)).isDigit = true := by
        generalize n / 10 ^ places = d at small
        revert d
        decide
      have value : (Nat.digitChar (n / 10 ^ places)).toNat - 0x30 = n / 10 ^ places :=
        Nat.toNat_digitChar_sub_48_of_lt_ten small
      rw [numeral, List.cons_append, digits?, if_pos digit, value]
      refine ih.mpr ⟨n % 10 ^ places, Nat.mod_lt _ pos, ?_, rfl⟩
      have whole := Nat.div_add_mod n (10 ^ places)
      calc m * 10 ^ (places + 1) + n
          = m * 10 ^ (places + 1) + (10 ^ places * (n / 10 ^ places) + n % 10 ^ places) := by
            rw [whole]
        _ = (m * 10 + n / 10 ^ places) * 10 ^ places + n % 10 ^ places := by ring

theorem digits?_numeral {places n : Nat} (lt : n < 10 ^ places) (rest : List Char) :
    digits? places 0 (numeral places n ++ rest) = some (n, rest) :=
  digits?_eq_some_iff.mpr ⟨n, lt, by simp, rfl⟩

theorem sign?_eq_some_iff {sign : Char} : sign? sign cs = some rest ↔ cs = sign :: rest := by
  cases cs with
  | nil => simp [sign?]
  | cons c cs =>
    rw [sign?]
    split_ifs with h
    · simp [h]
    · simp [h]

/-! ### Fractions -/

theorem isDecimal_of_isDigit {c : Char} (h : c.isDigit = true) : Text.isDecimal c = true := by
  have bounds : 48 ≤ c.toNat ∧ c.toNat ≤ 57 := by
    simpa [Char.isDigit, UInt32.le_iff_toNat_le] using h
  rw [Text.isDecimal, if_pos (by omega), h]

theorem FractionTaken.decimal {digits : List Char} (h : FractionTaken digits) :
    ∀ c ∈ digits, Text.isDecimal c = true := by
  rw [← List.take_append_drop 6 digits]
  refine List.forall_mem_append.mpr ⟨fun c hc => ?_, List.all_eq_true.mp h.2⟩
  exact isDecimal_of_isDigit (List.all_eq_true.mp h.1 c hc)

theorem isFraction_iff {digits : List Char} :
    isFraction digits = true ↔ digits ≠ [] ∧ FractionTaken digits := by
  simp only [isFraction, FractionTaken, Bool.and_eq_true, Bool.not_eq_true',
    List.isEmpty_eq_false_iff, and_assoc]

/-- A text that a fraction can stand in front of: it begins neither with a digit nor with a
point. -/
def Ends (rest : List Char) : Prop :=
  ∀ c ∈ rest.head?, Text.isDecimal c = false ∧ c ≠ '.'

theorem Zone.ends_chars (z : Zone) : Ends z.chars := by
  intro c hc
  cases z with
  | utc =>
    obtain rfl := Option.some.inj hc
    decide
  | offset side hours minutes =>
    obtain rfl := Option.some.inj hc
    cases side <;> decide

theorem skipFraction?_point {digits : List Char} (h : FractionTaken digits) (ends : Ends rest) :
    skipFraction? (point digits ++ rest) = some rest := by
  cases digits with
  | nil =>
    unfold skipFraction?
    split
    · next c tail eq =>
      rw [point, List.nil_append] at eq
      exact absurd rfl (ends '.' (by rw [eq]; rfl)).2
    · rfl
  | cons d ds =>
    have stop : rest.takeWhile Text.isDecimal = [] := by
      cases rest with
      | nil => rfl
      | cons c tail => rw [List.takeWhile_cons, (ends c rfl).1]; rfl
    have run : ((d :: ds) ++ rest).takeWhile Text.isDecimal = d :: ds := by
      rw [List.takeWhile_append_of_pos h.decimal, stop, List.append_nil]
    have fraction : isFraction (d :: ds) = true := isFraction_iff.mpr ⟨List.cons_ne_nil _ _, h⟩
    rw [point, List.cons_append, skipFraction?]
    simp only [run, fraction, if_true, List.drop_left]
    exact List.cons_ne_nil _ _

theorem exists_point_of_skipFraction? (h : skipFraction? cs = some rest) :
    ∃ digits, FractionTaken digits ∧ cs = point digits ++ rest := by
  unfold skipFraction? at h
  split at h
  · next tail =>
    dsimp only at h
    split_ifs at h with fraction
    obtain ⟨nonempty, taken⟩ := isFraction_iff.mp fraction
    refine ⟨_, taken, ?_⟩
    have whole := List.prefix_iff_eq_append.mp (List.takeWhile_prefix (l := tail) Text.isDecimal)
    obtain ⟨d, ds, digits⟩ := List.exists_cons_of_ne_nil nonempty
    rw [digits] at whole h ⊢
    rw [point, List.cons_append, ← Option.some.inj h, whole]
    exact List.cons_ne_nil _ _
  · obtain rfl := Option.some.inj h
    exact ⟨[], ⟨rfl, rfl⟩, rfl⟩

/-! ### Zones -/

theorem offsetSize?_eq_some_iff {n : Nat} :
    offset?.offsetSize? cs = some n ↔
      ∃ hours minutes, minutes < 10 ^ 2 ∧ hours * 60 + minutes < 24 * 60 ∧
        n = hours * 60 + minutes ∧ cs = clock hours minutes := by
  unfold offset?.offsetSize?
  simp only [Option.bind_eq_bind, Option.bind_eq_some_iff, Prod.exists, digits?_eq_some_iff,
    sign?_eq_some_iff]
  constructor
  · rintro ⟨_, _, ⟨hours, -, rfl, rfl⟩, _, rfl, _, _, ⟨minutes, lt, rfl, rfl⟩, h⟩
    split_ifs at h with complete
    rw [Bool.and_eq_true, List.isEmpty_iff, decide_eq_true_eq] at complete
    obtain ⟨rfl, small⟩ := complete
    rw [Nat.zero_mul, Nat.zero_add, Nat.zero_add] at small h
    exact ⟨hours, minutes, lt, small, (Option.some.inj h).symm, by rw [List.append_nil, clock]⟩
  · rintro ⟨hours, minutes, lt, small, rfl, rfl⟩
    have hoursLt : hours < 10 ^ 2 := by omega
    refine ⟨hours, _, ⟨hours, hoursLt, by simp, rfl⟩, _, rfl, minutes, [], ?_, ?_⟩
    · exact ⟨minutes, lt, by simp, (List.append_nil _).symm⟩
    · rw [if_pos (by simpa using small)]

theorem clock_inj {hours minutes hours' minutes' : Nat} (h : hours < 10 ^ 2) (m : minutes < 10 ^ 2)
    (h' : hours' < 10 ^ 2) (m' : minutes' < 10 ^ 2)
    (same : clock hours minutes = clock hours' minutes') : hours = hours' ∧ minutes = minutes' := by
  have first := digits?_numeral h (':' :: numeral 2 minutes)
  change digits? 2 0 (clock hours minutes) = _ at first
  rw [same, clock, digits?_numeral h', Option.some.injEq, Prod.mk.injEq, List.cons.injEq] at first
  have second := digits?_numeral m []
  rw [List.append_nil, ← first.2.2, ← List.append_nil (numeral 2 minutes'), digits?_numeral m',
    Option.some.injEq, Prod.mk.injEq] at second
  exact ⟨first.1.symm, second.1.symm⟩

/-- Exactly the known zones of less than a day are read, as the minutes that they are ahead. -/
theorem offset?_eq_some_iff {n : Int} :
    offset? cs = some n ↔ ∃ z : Zone, z.Taken ∧ n = z.inMinutes ∧ cs = z.chars := by
  have unknown : clock 0 0 = ['0', '0', ':', '0', '0'] := rfl
  constructor
  · intro h
    unfold offset? at h
    split at h
    · obtain rfl := Option.some.inj h
      exact ⟨.utc, trivial, rfl, rfl⟩
    · obtain ⟨_, bound, rfl⟩ := Option.map_eq_some_iff.mp h
      obtain ⟨_, size, value⟩ := Option.bind_eq_some_iff.mp bound
      obtain rfl := Option.some.inj value
      obtain ⟨hours, minutes, lt, small, rfl, rfl⟩ := offsetSize?_eq_some_iff.mp size
      exact ⟨.offset .ahead hours minutes, ⟨by omega, small, nofun⟩, rfl, rfl⟩
    · split_ifs at h with zero
      obtain ⟨_, bound, rfl⟩ := Option.map_eq_some_iff.mp h
      obtain ⟨_, size, value⟩ := Option.bind_eq_some_iff.mp bound
      obtain rfl := Option.some.inj value
      obtain ⟨hours, minutes, lt, small, rfl, rfl⟩ := offsetSize?_eq_some_iff.mp size
      refine ⟨.offset .behind hours minutes, ⟨by omega, small, ?_⟩, rfl, rfl⟩
      rintro ⟨⟩
      exact zero unknown
    · cases h
  · rintro ⟨z, taken, rfl, rfl⟩
    cases z with
    | utc => rfl
    | offset side hours minutes =>
      obtain ⟨lt, small, known⟩ := taken
      have size := offsetSize?_eq_some_iff.mpr ⟨hours, minutes, by omega, small, rfl, rfl⟩
      cases side with
      | ahead =>
        rw [Zone.chars, Side.sign, offset?, size]
        rfl
      | behind =>
        have nonzero : clock hours minutes ≠ ['0', '0', ':', '0', '0'] := by
          intro zero
          rw [← unknown] at zero
          obtain ⟨rfl, rfl⟩ := clock_inj (by omega) (by omega) (by decide) (by decide) zero
          exact known rfl
        rw [Zone.chars, Side.sign, offset?, if_neg nonzero, size]
        rfl

theorem Zone.chars_inj (h : z.Taken) (h' : z'.Taken) (same : z.chars = z'.chars) : z = z' := by
  cases z with
  | utc =>
    cases z' with
    | utc => rfl
    | offset side hours minutes => cases side <;> cases (List.cons.inj same).1
  | offset side hours minutes =>
    cases z' with
    | utc => cases side <;> cases (List.cons.inj same).1
    | offset side' hours' minutes' =>
      obtain ⟨sign, same⟩ := List.cons.inj same
      obtain ⟨lt, small, -⟩ := h
      obtain ⟨lt', small', -⟩ := h'
      obtain ⟨rfl, rfl⟩ := clock_inj (by omega) (by omega) (by omega) (by omega) same
      cases side <;> cases side' <;> first | rfl | cases sign

/-! ### Datetimes -/

/-- A text is read exactly if it is written from numbers in their places, a fraction and a zone. -/
theorem parts?_eq_some_iff {p : Parts} :
    parts? cs = some p ↔ ∃ w : Written, w.Fits ∧ FractionTaken w.fraction ∧ w.zone.Taken ∧
      p = w.parts ∧ cs = w.chars := by
  unfold parts?
  simp only [Option.bind_eq_bind, Option.bind_eq_some_iff, Prod.exists, digits?_eq_some_iff,
    sign?_eq_some_iff, offset?_eq_some_iff, Nat.zero_mul, Nat.zero_add, Option.some.injEq]
  constructor
  · rintro ⟨year, _, ⟨_, hyear, rfl, rfl⟩, _, rfl, month, _, ⟨_, hmonth, rfl, rfl⟩, _, rfl,
      day, _, ⟨_, hday, rfl, rfl⟩, _, rfl, hour, _, ⟨_, hhour, rfl, rfl⟩, _, rfl,
      minute, _, ⟨_, hminute, rfl, rfl⟩, _, rfl, second, _, ⟨_, hsecond, rfl, rfl⟩, _, hfraction,
      _, ⟨z, taken, rfl, rfl⟩, rfl⟩
    obtain ⟨digits, fraction, rfl⟩ := exists_point_of_skipFraction? hfraction
    exact ⟨⟨⟨year, month, day⟩, hour, minute, second, digits, z⟩,
      ⟨hyear, hmonth, hday, hhour, hminute, hsecond⟩, fraction, taken, rfl, rfl⟩
  · rintro ⟨w, fits, fraction, taken, rfl, rfl⟩
    exact ⟨_, _, ⟨_, fits.year, rfl, rfl⟩, _, rfl, _, _, ⟨_, fits.month, rfl, rfl⟩, _, rfl,
      _, _, ⟨_, fits.day, rfl, rfl⟩, _, rfl, _, _, ⟨_, fits.hour, rfl, rfl⟩, _, rfl,
      _, _, ⟨_, fits.minute, rfl, rfl⟩, _, rfl, _, _, ⟨_, fits.second, rfl, rfl⟩, _,
      skipFraction?_point fraction w.zone.ends_chars, _, ⟨_, taken, rfl, rfl⟩, rfl⟩

theorem Written.isReal_parts_iff : w.parts.isReal = true ↔ w.Real := by
  simp only [Parts.isReal, Bool.and_eq_true, decide_eq_true_eq, Calendar.Date.isReal_iff]
  constructor
  · rintro ⟨⟨⟨⟨date, year⟩, hour⟩, minute⟩, second⟩
    exact ⟨date, year, hour, minute, second⟩
  · intro h
    exact ⟨⟨⟨⟨h.date, h.year⟩, h.hour⟩, h.minute⟩, h.second⟩

theorem daysInMonth_le (year month : Nat) : Calendar.daysInMonth year month ≤ 31 := by
  unfold Calendar.daysInMonth
  split <;> first | omega | split <;> omega

theorem Written.Real.fits (h : w.Real) : w.Fits where
  year := by have := h.year; omega
  month := by have := h.date.month_le; omega
  day := by
    have := h.date.day_le
    have := daysInMonth_le w.date.year w.date.month
    omega
  hour := by have := h.hour; omega
  minute := by have := h.minute; omega
  second := by have := h.second; omega

theorem isValid_iff {s : String} :
    isValid s = true ↔ ∃ w : Written, w.Taken ∧ w.chars = s.toList := by
  rw [isValid, Option.any_eq_true]
  constructor
  · rintro ⟨p, read, real⟩
    obtain ⟨w, -, fraction, zone, rfl, same⟩ := parts?_eq_some_iff.mp read
    exact ⟨w, ⟨Written.isReal_parts_iff.mp real, fraction, zone⟩, same.symm⟩
  · rintro ⟨w, taken, same⟩
    refine ⟨w.parts, parts?_eq_some_iff.mpr ?_, Written.isReal_parts_iff.mpr taken.real⟩
    exact ⟨w, taken.real.fits, taken.fraction, taken.zone, rfl, same.symm⟩

/-- What is taken for a datetime can be told from its characters. -/
theorem Written.chars_inj (h : w.Taken) (h' : w'.Taken) (same : w.chars = w'.chars) : w = w' := by
  have read := parts?_eq_some_iff.mpr ⟨w, h.real.fits, h.fraction, h.zone, rfl, rfl⟩
  have read' := parts?_eq_some_iff.mpr ⟨w', h'.real.fits, h'.fraction, h'.zone, rfl, rfl⟩
  rw [same, read', Option.some.injEq] at read
  obtain ⟨date, hour, minute, second, fraction, zone⟩ := w
  obtain ⟨date', hour', minute', second', fraction', zone'⟩ := w'
  simp only [Written.parts, Parts.mk.injEq] at read
  obtain ⟨rfl, rfl, rfl, rfl, -⟩ := read
  simp only [Written.chars, List.append_cancel_left_eq, List.cons.injEq, true_and] at same
  have skipped := skipFraction?_point h.fraction zone.ends_chars
  rw [same, skipFraction?_point h'.fraction zone'.ends_chars, Option.some.injEq] at skipped
  obtain rfl := Zone.chars_inj h.zone h'.zone skipped.symm
  have digits : fraction = fraction' := by
    have pointed := List.append_cancel_right same
    cases fraction <;> cases fraction' <;> simp_all [point]
  rw [digits]

/-! ### What the standard has -/

theorem Zone.standard_iff : z.Standard ↔ z.Taken ∧ z.MinutesFit := by
  cases z with
  | utc => exact ⟨fun _ => ⟨trivial, trivial⟩, fun _ => trivial⟩
  | offset side hours minutes =>
    constructor
    · rintro ⟨hour, minute, known⟩
      exact ⟨⟨by omega, by omega, known⟩, minute⟩
    · rintro ⟨⟨-, small, known⟩, minute⟩
      exact ⟨by omega, minute, known⟩

theorem fractionTaken_of_digits {digits : List Char} (h : digits.all Char.isDigit = true) :
    FractionTaken digits := by
  rw [List.all_eq_true] at h
  constructor
  · exact List.all_eq_true.mpr fun c hc => h c (List.mem_of_mem_take hc)
  · exact List.all_eq_true.mpr fun c hc => isDecimal_of_isDigit (h c (List.mem_of_mem_drop hc))

theorem Written.standard_iff :
    w.Standard ↔ w.Taken ∧ w.fraction.all Char.isDigit = true ∧ w.zone.MinutesFit := by
  constructor
  · intro h
    obtain ⟨zone, minutes⟩ := Zone.standard_iff.mp h.zone
    exact ⟨⟨h.real, fractionTaken_of_digits h.fraction, zone⟩, h.fraction, minutes⟩
  · rintro ⟨taken, digits, minutes⟩
    exact ⟨taken.real, digits, Zone.standard_iff.mpr ⟨taken.zone, minutes⟩⟩

/-- A text is written as RFC 3339 has it, with a known zone. -/
def IsStandard (s : String) : Prop :=
  ∃ w : Written, w.Standard ∧ w.chars = s.toList

theorem length_numeral (places n : Nat) : (numeral places n).length = places := by
  induction places generalizing n with
  | zero => rfl
  | succ places ih => rw [numeral, List.length_cons, ih]

/-- A datetime that ends in `-00:00` has the unknown zone. -/
theorem Written.isUnknown_of_suffix (h : w.zone.Taken) (suffix : "-00:00".toList <:+ w.chars) :
    w.zone.IsUnknown := by
  have zone : w.zone.chars <:+ w.chars := by
    simp only [Written.chars, ← List.append_assoc, ← List.cons_append]
    exact List.suffix_append _ _
  cases hzone : w.zone with
  | utc =>
    rw [hzone] at zone
    exact absurd (List.suffix_of_suffix_length_le zone suffix (by decide)) (by decide)
  | offset side hours minutes =>
    rw [hzone] at zone h
    have length : (Zone.offset side hours minutes).chars.length = "-00:00".toList.length := by
      simp [Zone.chars, clock, length_numeral]
    have same := (List.suffix_of_suffix_length_le zone suffix length.le).eq_of_length length
    have written : side.sign :: clock hours minutes = '-' :: clock 0 0 := same
    obtain ⟨sign, digits⟩ := List.cons_eq_cons.mp written
    obtain ⟨lt, small, -⟩ := h
    obtain ⟨rfl, rfl⟩ := clock_inj (by omega) (by omega) (by decide) (by decide) digits
    cases side with
    | ahead => exact absurd sign (by decide)
    | behind => rfl

theorem Zone.Taken.not_isUnknown (h : z.Taken) : ¬z.IsUnknown := by
  rintro rfl
  exact h.2.2 rfl

/-- What is taken and makes use of a freedom does not keep to RFC 3339. -/
theorem not_isStandard_of_taken {s : String} (taken : w.Taken) (same : w.chars = s.toList)
    (free : ¬(w.fraction.all Char.isDigit = true ∧ w.zone.MinutesFit)) : ¬IsStandard s := by
  rintro ⟨w', standard, same'⟩
  obtain ⟨taken', fits⟩ := Written.standard_iff.mp standard
  obtain rfl := Written.chars_inj taken taken' (same.trans same'.symm)
  exact free fits

/-- **Datetimes are those of RFC 3339 but for two freedoms.** A text is a datetime exactly if it is
written, and in one way only, from a date and a time of day that exist, a fraction with digits of
ASCII up to the sixth, and a known zone of less than a day; so it does not end in `-00:00`. It keeps
to RFC 3339 exactly if besides all digits of the fraction are those of ASCII and the minutes of the
offset are at most 59. -/
theorem isValid_iff_written (s : String) :
    (isValid s = true ↔ ∃! w : Written, w.Taken ∧ w.chars = s.toList) ∧
      (isValid s = true → ¬"-00:00".toList <:+ s.toList) ∧
        (IsStandard s ↔ ∃ w : Written, (w.Taken ∧ w.chars = s.toList) ∧
          w.fraction.all Char.isDigit = true ∧ w.zone.MinutesFit) := by
  refine ⟨?_, ?_, ?_⟩
  · rw [isValid_iff]
    constructor
    · rintro ⟨w, taken, same⟩
      refine ⟨w, ⟨taken, same⟩, ?_⟩
      rintro w' ⟨taken', same'⟩
      exact Written.chars_inj taken' taken (same'.trans same.symm)
    · rintro ⟨w, written, -⟩
      exact ⟨w, written⟩
  · intro valid suffix
    obtain ⟨w, taken, same⟩ := isValid_iff.mp valid
    rw [← same] at suffix
    exact taken.zone.not_isUnknown (Written.isUnknown_of_suffix taken.zone suffix)
  · refine exists_congr fun w => ?_
    rw [Written.standard_iff]
    tauto

/-- Half a second after noon, five and a half hours ahead. -/
theorem isValid_iff_written_noon :
    isValid "2024-06-30T12:00:00.5+05:30" = true ∧
      ¬"-00:00".toList <:+ "2024-06-30T12:00:00.5+05:30".toList ∧
        IsStandard "2024-06-30T12:00:00.5+05:30" := by
  let w : Written := ⟨⟨2024, 6, 30⟩, 12, 0, 0, ['5'], .offset .ahead 5 30⟩
  have valid : isValid "2024-06-30T12:00:00.5+05:30" = true := by decide
  have real : w.Real := Written.isReal_parts_iff.mp rfl
  have minutes : w.zone.MinutesFit := by simp [w, Zone.MinutesFit]
  have taken : w.Taken := ⟨real, ⟨by decide, by decide⟩, by simp [w, Zone.Taken, Zone.IsUnknown]⟩
  obtain ⟨-, known, standard⟩ := isValid_iff_written "2024-06-30T12:00:00.5+05:30"
  exact ⟨valid, known valid, standard.mpr ⟨w, ⟨taken, by decide⟩, by decide, minutes⟩⟩

/-- Ninety-nine minutes of an offset, and an Arabic digit in the seventh place of a fraction, are
taken. -/
theorem not_isStandard_of_isValid :
    (isValid "2024-01-01T12:00:00+00:99" = true ∧ ¬IsStandard "2024-01-01T12:00:00+00:99") ∧
      isValid "2024-01-01T12:00:00.000000٣Z" = true ∧
        ¬IsStandard "2024-01-01T12:00:00.000000٣Z" := by
  have real {fraction : List Char} {zone : Zone} :
      (⟨⟨2024, 1, 1⟩, 12, 0, 0, fraction, zone⟩ : Written).Real :=
    Written.isReal_parts_iff.mp rfl
  constructor
  · let w : Written := ⟨⟨2024, 1, 1⟩, 12, 0, 0, [], .offset .ahead 0 99⟩
    have taken : w.Taken := ⟨real, ⟨rfl, rfl⟩, by simp [w, Zone.Taken, Zone.IsUnknown]⟩
    have same : w.chars = "2024-01-01T12:00:00+00:99".toList := by decide
    refine ⟨isValid_iff.mpr ⟨w, taken, same⟩, not_isStandard_of_taken taken same ?_⟩
    simp [w, Zone.MinutesFit]
  · let w : Written := ⟨⟨2024, 1, 1⟩, 12, 0, 0, "000000٣".toList, .utc⟩
    have taken : w.Taken := ⟨real, ⟨by decide, by decide⟩, trivial⟩
    have same : w.chars = "2024-01-01T12:00:00.000000٣Z".toList := by decide
    refine ⟨isValid_iff.mpr ⟨w, taken, same⟩, not_isStandard_of_taken taken same ?_⟩
    rintro ⟨digits, -⟩
    exact absurd digits (by decide)

end Lexicon.Datetime
