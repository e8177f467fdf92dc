import Lexicon.Calendar
import Mathlib.Order.Basic
import Mathlib.Tactic.IntervalCases
import Mathlib.Tactic.SplitIfs

/-!
# Days and moments

The days of the calendar are numbered from the first of January of year 1, and a moment is a place
on the line of microseconds. Main statements: the dates of the day numbers follow one another as on
the calendar, dates and their numbers determine each other, and so do the moments of one zone and
their places on the line.
-/

namespace Lexicon.Calendar

/-! ### Years and months -/

theorem isLeap_iff {year : Nat} : isLeap year = true ↔ 4 ∣ year ∧ (¬100 ∣ year ∨ 400 ∣ year) := by
  simp [isLeap, Nat.dvd_iff_mod_eq_zero]

/-- The number of days of a year. -/
def daysInYear (year : Nat) : Nat :=
  if isLeap year then 366 else 365

theorem daysBeforeYear_succ {year : Nat} (h : 1 ≤ year) :
    daysBeforeYear (year + 1) = daysBeforeYear year + daysInYear year := by
  obtain ⟨y, rfl⟩ : ∃ y, year = y + 1 := Nat.exists_eq_add_of_le' h
  have hundreds : y / 100 ≤ y / 4 := Nat.div_le_div_left (by decide) (by decide)
  simp only [daysBeforeYear, daysInYear, isLeap_iff, Nat.add_sub_cancel, Nat.succ_div]
  generalize y / 4 = quads at hundreds ⊢
  generalize y / 100 = centuries at hundreds ⊢
  split_ifs <;> omega

theorem daysBeforeYear_add_le {year later : Nat} (h : 1 ≤ year) (lt : year < later) :
    daysBeforeYear year + daysInYear year ≤ daysBeforeYear later := by
  induction lt with
  | refl => exact Nat.le_of_eq (daysBeforeYear_succ h).symm
  | step lt ih =>
    apply Nat.le_trans ih
    rw [daysBeforeYear_succ (Nat.lt_of_le_of_lt (Nat.zero_le _) lt)]
    omega

theorem daysBeforeMonth_succ (year month : Nat) :
    daysBeforeMonth year (month + 1) = daysBeforeMonth year month + daysInMonth year month := by
  cases month <;> rfl

theorem daysBeforeMonth_add_le (year : Nat) {month later : Nat} (lt : month < later) :
    daysBeforeMonth year month + daysInMonth year month ≤ daysBeforeMonth year later := by
  induction lt with
  | refl => exact Nat.le_of_eq (daysBeforeMonth_succ year month).symm
  | step lt ih =>
    apply Nat.le_trans ih
    rw [Nat.succ_eq_add_one, daysBeforeMonth_succ]
    omega

/-- The months of a year make up the year. -/
theorem daysBeforeMonth_thirteen (year : Nat) : daysBeforeMonth year 13 = daysInYear year := by
  simp only [daysBeforeMonth, daysInMonth, daysInYear]
  split <;> rfl

theorem daysInMonth_pos {year month : Nat} (pos : 1 ≤ month) (le : month ≤ 12) :
    1 ≤ daysInMonth year month := by
  have february : 28 ≤ daysInMonth year 2 := by
    simp only [daysInMonth]
    split <;> decide
  interval_cases month <;> first | omega | simp only [daysInMonth, Nat.one_le_ofNat]

namespace Date

/-! ### Dates and their numbers -/

/-- A date of the calendar, in any year from the first on. -/
structure Exists (d : Date) : Prop where
  year_pos : 1 ≤ d.year
  month_pos : 1 ≤ d.month
  month_le : d.month ≤ 12
  day_pos : 1 ≤ d.day
  day_le : d.day ≤ daysInMonth d.year d.month

theorem isReal_iff {d : Date} : d.isReal = true ↔ d.Exists ∧ d.year ≤ 9999 := by
  simp only [isReal, Bool.and_eq_true, decide_eq_true_eq]
  constructor
  · rintro ⟨⟨⟨⟨⟨year_pos, year_le⟩, month_pos⟩, month_le⟩, day_pos⟩, day_le⟩
    exact ⟨⟨year_pos, month_pos, month_le, day_pos, day_le⟩, year_le⟩
  · rintro ⟨⟨year_pos, month_pos, month_le, day_pos, day_le⟩, year_le⟩
    exact ⟨⟨⟨⟨⟨year_pos, year_le⟩, month_pos⟩, month_le⟩, day_pos⟩, day_le⟩

/-- A date lies within its year. -/
theorem Exists.lt_daysInYear {d : Date} (h : d.Exists) :
    daysBeforeMonth d.year d.month + (d.day - 1) < daysInYear d.year := by
  have inMonth := h.day_le
  have inYear := daysBeforeMonth_add_le d.year (Nat.lt_succ_of_le h.month_le)
  have pos := h.day_pos
  rw [daysBeforeMonth_thirteen] at inYear
  omega

theorem Exists.year_le {d e : Date} (he : e.Exists) (h : d.dayNumber ≤ e.dayNumber) :
    d.year ≤ e.year := by
  by_contra later
  have before := daysBeforeYear_add_le he.year_pos (Nat.lt_of_not_le later)
  have inYear := he.lt_daysInYear
  unfold dayNumber at h
  omega

theorem Exists.month_le_of_year_eq {d e : Date} (he : e.Exists) (year : d.year = e.year)
    (h : d.dayNumber ≤ e.dayNumber) : d.month ≤ e.month := by
  by_contra later
  have before := daysBeforeMonth_add_le e.year (Nat.lt_of_not_le later)
  have inMonth := he.day_le
  have pos := he.day_pos
  rw [dayNumber, dayNumber, year] at h
  omega

/-- No two dates have one number. -/
theorem eq_of_dayNumber_eq {d e : Date} (hd : d.Exists) (he : e.Exists)
    (h : d.dayNumber = e.dayNumber) : d = e := by
  have year : d.year = e.year := Nat.le_antisymm (he.year_le (Nat.le_of_eq h))
    (hd.year_le (Nat.le_of_eq h.symm))
  have month : d.month = e.month := Nat.le_antisymm
    (he.month_le_of_year_eq year (Nat.le_of_eq h))
    (hd.month_le_of_year_eq year.symm (Nat.le_of_eq h.symm))
  have day : d.day = e.day := by
    have pos := hd.day_pos
    have pos' := he.day_pos
    rw [dayNumber, dayNumber, year, month] at h
    omega
  cases d
  cases e
  congr

/-! ### One day after the other -/

/-- The day after a date. -/
def next (d : Date) : Date :=
  if d.day < daysInMonth d.year d.month then ⟨d.year, d.month, d.day + 1⟩
  else if d.month < 12 then ⟨d.year, d.month + 1, 1⟩
  else ⟨d.year + 1, 1, 1⟩

theorem Exists.next {d : Date} (h : d.Exists) : d.next.Exists := by
  have month_pos := h.month_pos
  unfold Date.next
  split_ifs with inMonth inYear
  · exact ⟨h.year_pos, month_pos, h.month_le, Nat.succ_pos _, inMonth⟩
  · exact ⟨h.year_pos, Nat.succ_pos _, inYear, Nat.le_refl 1,
      daysInMonth_pos (Nat.succ_pos _) inYear⟩
  · have month_le : 1 ≤ 12 := by decide
    exact ⟨Nat.succ_pos _, Nat.le_refl 1, month_le, Nat.le_refl 1,
      daysInMonth_pos (Nat.le_refl 1) month_le⟩

/-- The next day has the next number. -/
theorem dayNumber_next {d : Date} (h : d.Exists) : d.next.dayNumber = d.dayNumber + 1 := by
  have day_pos := h.day_pos
  have day_le := h.day_le
  unfold Date.next
  split_ifs with inMonth inYear
  · simp only [dayNumber]
    omega
  · simp only [dayNumber, daysBeforeMonth_succ]
    omega
  · have december : d.month = 12 := Nat.le_antisymm h.month_le (Nat.le_of_not_lt inYear)
    have whole := daysBeforeMonth_thirteen d.year
    rw [daysBeforeMonth_succ, ← december] at whole
    have january : daysBeforeMonth (d.year + 1) 1 = 0 := rfl
    simp only [dayNumber, daysBeforeYear_succ h.year_pos, january]
    omega

/-! ### The date of a day number -/

/-- The months are passed one after the other until the day lies in one of them. -/
theorem exists_monthAndDay {year : Nat} (months month days : Nat) (pos : 1 ≤ month)
    (last : month + months = 12) (inYear : daysBeforeMonth year month + days < daysInYear year) :
    ∃ m d, monthAndDay year months month days = (m, d) ∧ 1 ≤ m ∧ m ≤ 12 ∧ 1 ≤ d ∧
      d ≤ daysInMonth year m ∧
      daysBeforeMonth year m + (d - 1) = daysBeforeMonth year month + days := by
  induction months generalizing month days with
  | zero =>
    obtain rfl : month = 12 := last
    have whole := daysBeforeMonth_thirteen year
    rw [daysBeforeMonth_succ] at whole
    exact ⟨12, days + 1, rfl, by decide, by decide, Nat.succ_pos _, by omega, rfl⟩
  | succ months ih =>
    rw [monthAndDay]
    split_ifs with inMonth
    · exact ⟨month, days + 1, rfl, pos, by omega, Nat.succ_pos _, inMonth, rfl⟩
    · have passed := daysBeforeMonth_succ year month
      obtain ⟨m, d, found, rest⟩ := ih (month + 1) (days - daysInMonth year month)
        (by omega) (by omega) (by omega)
      refine ⟨m, d, found, ?_⟩
      omega

/-- The days before a year, by cycles of 400 years, centuries and groups of four years. -/
theorem daysBeforeYear_of_parts {cycles centuries quads years n : Nat} (hc : centuries ≤ 3)
    (hq : quads ≤ 24) (hy : years ≤ 3)
    (hn : n = cycles * 400 + centuries * 100 + quads * 4 + years) :
    daysBeforeYear (n + 1) =
      cycles * 146097 + centuries * 36524 + quads * 1461 + years * 365 := by
  have fours : n / 4 = cycles * 100 + centuries * 25 + quads := by omega
  have hundreds : n / 100 = cycles * 4 + centuries := by omega
  have fourHundreds : n / 400 = cycles := by omega
  simp only [daysBeforeYear, Nat.add_sub_cancel]
  omega

/-- The last of four years is a leap year, but the last of a century only where it ends a cycle. -/
theorem daysInYear_of_parts {cycles centuries quads : Nat} (hq : quads ≤ 24)
    (h : quads < 24 ∨ centuries = 3) :
    daysInYear (cycles * 400 + centuries * 100 + quads * 4 + 3 + 1) = 366 := by
  have leap : isLeap (cycles * 400 + centuries * 100 + quads * 4 + 3 + 1) = true := by
    rw [isLeap_iff]
    omega
  rw [daysInYear, if_pos leap]

theorem le_daysInYear (year : Nat) : 365 ≤ daysInYear year := by
  unfold daysInYear
  split <;> decide

/-- The year of a day, and the days of that year before it. -/
theorem ofDayNumber_eq (n : Nat) :
    ∃ year rest, 1 ≤ year ∧ rest < daysInYear year ∧ daysBeforeYear year + rest = n ∧
      ofDayNumber n =
        ⟨year, (monthAndDay year 11 1 rest).1, (monthAndDay year 11 1 rest).2⟩ := by
  obtain ⟨centuries, hc⟩ : ∃ c, c = min (n % 146097 / 36524) 3 := ⟨_, rfl⟩
  obtain ⟨inCentury, he⟩ : ∃ e, e = n % 146097 - centuries * 36524 := ⟨_, rfl⟩
  obtain ⟨years, hy⟩ : ∃ y, y = min (inCentury % 1461 / 365) 3 := ⟨_, rfl⟩
  have last_century : inCentury < 36524 ∨ inCentury = 36524 ∧ centuries = 3 := by omega
  have quads_le : inCentury / 1461 ≤ 24 := by omega
  have last_year : inCentury % 1461 - years * 365 < 365 ∨
      years = 3 ∧ inCentury % 1461 = 1460 := by omega
  refine ⟨n / 146097 * 400 + centuries * 100 + inCentury / 1461 * 4 + years + 1,
    inCentury % 1461 - years * 365, Nat.succ_pos _, ?_, ?_, ?_⟩
  · rcases last_year with common | ⟨rfl, last_day⟩
    · exact Nat.lt_of_lt_of_le common (le_daysInYear _)
    · rw [daysInYear_of_parts quads_le (by omega), last_day]
      decide
  · rw [daysBeforeYear_of_parts (by omega) quads_le (by omega) rfl]
    omega
  · subst hy he hc
    rfl

/-- A day number is that of its date. -/
theorem ofDayNumber_spec (n : Nat) :
    (ofDayNumber n).Exists ∧ (ofDayNumber n).dayNumber = n := by
  obtain ⟨year, rest, year_pos, inYear, whole, date⟩ := ofDayNumber_eq n
  have january : daysBeforeMonth year 1 = 0 := rfl
  rw [← Nat.zero_add rest, ← january] at inYear
  obtain ⟨month, day, found, month_pos, month_le, day_pos, day_le, days⟩ :=
    exists_monthAndDay 11 1 rest (by decide) (by decide) inYear
  rw [date, found]
  refine ⟨⟨year_pos, month_pos, month_le, day_pos, day_le⟩, ?_⟩
  simp only [dayNumber]
  omega

theorem ofDayNumber_zero : ofDayNumber 0 = ⟨1, 1, 1⟩ :=
  rfl

/-- The dates of the day numbers follow one another as on the calendar. -/
theorem ofDayNumber_succ (n : Nat) : ofDayNumber (n + 1) = (ofDayNumber n).next := by
  obtain ⟨date, number⟩ := ofDayNumber_spec n
  obtain ⟨date', number'⟩ := ofDayNumber_spec (n + 1)
  apply eq_of_dayNumber_eq date' date.next
  rw [number', dayNumber_next date, number]

/-- A date is that of its number. -/
theorem ofDayNumber_dayNumber {d : Date} (h : d.Exists) : ofDayNumber d.dayNumber = d :=
  eq_of_dayNumber_eq (ofDayNumber_spec _).1 h (ofDayNumber_spec _).2

/-- Days before the year 10000 have real dates. -/
theorem isReal_ofDayNumber {n : Nat} (h : n < daysBeforeYear 10000) :
    (ofDayNumber n).isReal = true := by
  obtain ⟨date, number⟩ := ofDayNumber_spec n
  refine isReal_iff.mpr ⟨date, ?_⟩
  by_contra later
  have before : daysBeforeYear 10000 ≤ daysBeforeYear (ofDayNumber n).year := by
    rcases Nat.eq_or_lt_of_le (Nat.lt_of_not_le later) with same | after
    · exact Nat.le_of_eq (congrArg daysBeforeYear same)
    · exact Nat.le_of_add_right_le (daysBeforeYear_add_le (by decide) after)
  unfold dayNumber at number
  omega

end Date

/-! ### Moments -/

namespace Moment

/-- A moment that exists: a real date, a time of day without leap seconds, and a zone less than a
day from UTC. -/
structure IsReal (m : Moment) : Prop where
  date : m.date.isReal = true
  hour : m.hour < 24
  minute : m.minute < 60
  second : m.second < 60
  microsecond : m.microsecond < 1000000
  offset : -86400000000 < m.offset.microseconds ∧ m.offset.microseconds < 86400000000

/-- The place of a moment in UTC. -/
theorem sinceEpoch_ofMicroseconds (n : Nat) : (ofMicroseconds n).sinceEpoch = n := by
  simp only [sinceEpoch, ofMicroseconds, (Date.ofDayNumber_spec _).2, Offset.utc, epochDay]
  omega

example : ofMicroseconds 1688137381887007 = ⟨⟨2023, 6, 30⟩, 15, 3, 1, 887007, .utc⟩ := by
  decide

theorem isReal_ofMicroseconds {n : Nat} (h : n < 2 ^ 54) : (ofMicroseconds n).IsReal where
  date := Date.isReal_ofDayNumber (by simp only [daysBeforeYear, epochDay]; omega)
  hour := by simp only [ofMicroseconds]; omega
  minute := by simp only [ofMicroseconds]; omega
  second := by simp only [ofMicroseconds]; omega
  microsecond := by simp only [ofMicroseconds]; omega
  offset := by simp [ofMicroseconds, Offset.utc]

/-- Real moments of one zone at one place on the line are the same. -/
theorem IsReal.eq_of_sinceEpoch_eq {m m' : Moment} (h : m.IsReal) (h' : m'.IsReal)
    (offset : m.offset = m'.offset) (same : m.sinceEpoch = m'.sinceEpoch) : m = m' := by
  obtain ⟨date, hour, minute, second, microsecond, -⟩ := h
  obtain ⟨date', hour', minute', second', microsecond', -⟩ := h'
  unfold sinceEpoch at same
  rw [offset] at same
  have days : m.date.dayNumber = m'.date.dayNumber := by omega
  have dates : m.date = m'.date := Date.eq_of_dayNumber_eq (Date.isReal_iff.mp date).1
    (Date.isReal_iff.mp date').1 days
  have hours : m.hour = m'.hour := by omega
  have minutes : m.minute = m'.minute := by omega
  have seconds : m.second = m'.second := by omega
  have microseconds : m.microsecond = m'.microsecond := by omega
  cases m
  cases m'
  congr

end Moment

/-! ### Lengths of time -/

/-- A length of time is put together again from its days, seconds and microseconds. -/
theorem Duration.inMicroseconds_ofMicroseconds (n : Int) :
    (ofMicroseconds n).inMicroseconds = n := by
  simp only [inMicroseconds, ofMicroseconds]
  omega

end Lexicon.Calendar
