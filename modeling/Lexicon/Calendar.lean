/-!
# The calendar

Dates of the proleptic Gregorian calendar in the years 1 to 9999, and moments counted in
microseconds from the beginning of 1970.
-/

namespace Lexicon.Calendar

/-- Whether a year has a leap day. -/
def isLeap (year : Nat) : Bool :=
  year % 4 == 0 && (year % 100 != 0 || year % 400 == 0)

/-- The number of days of a month. -/
def daysInMonth (year month : Nat) : Nat :=
  match month with
  | 1 | 3 | 5 | 7 | 8 | 10 | 12 => 31
  | 4 | 6 | 9 | 11 => 30
  | 2 => if isLeap year then 29 else 28
  | _ => 0

/-- The number of days before a year, counted from the beginning of year 1. -/
def daysBeforeYear (year : Nat) : Nat :=
  (year - 1) * 365 + (year - 1) / 4 - (year - 1) / 100 + (year - 1) / 400

/-- The number of days of a year before a month. -/
def daysBeforeMonth (year : Nat) : Nat → Nat
  | 0 => 0
  | 1 => 0
  | month + 2 => daysBeforeMonth year (month + 1) + daysInMonth year (month + 1)

/-- A date. -/
structure Date where
  year : Nat
  month : Nat
  day : Nat
  deriving DecidableEq, Repr

/-- Whether a date exists. -/
def Date.isReal (d : Date) : Bool :=
  1 ≤ d.year && d.year ≤ 9999 && 1 ≤ d.month && d.month ≤ 12 && 1 ≤ d.day &&
    d.day ≤ daysInMonth d.year d.month

/-- The number of days from the beginning of year 1 to a date. -/
def Date.dayNumber (d : Date) : Nat :=
  daysBeforeYear d.year + daysBeforeMonth d.year d.month + (d.day - 1)

/-- The month and the day of the month, from a month on, that lie the given number of days after
its first; `months` bounds the number of months to look at. -/
def monthAndDay (year : Nat) : Nat → Nat → Nat → Nat × Nat
  | 0, month, days => (month, days + 1)
  | months + 1, month, days =>
    if days < daysInMonth year month then (month, days + 1)
    else monthAndDay year months (month + 1) (days - daysInMonth year month)

/-- The date that lies the given number of days after the beginning of year 1. -/
def Date.ofDayNumber (n : Nat) : Date :=
  let cycles := n / 146097
  let inCycle := n % 146097
  let centuries := min (inCycle / 36524) 3
  let inCentury := inCycle - centuries * 36524
  let quads := inCentury / 1461
  let inQuad := inCentury % 1461
  let years := min (inQuad / 365) 3
  let year := cycles * 400 + centuries * 100 + quads * 4 + years + 1
  let (month, day) := monthAndDay year 11 1 (inQuad - years * 365)
  ⟨year, month, day⟩

/-- The day number of the first of January 1970. -/
def epochDay : Nat := 719162

/-- How far a zone is ahead of UTC. -/
structure Offset where
  microseconds : Int
  deriving DecidableEq, Repr

/-- The offset of UTC itself. -/
def Offset.utc : Offset := ⟨0⟩

/-- A plain number counts minutes. -/
instance : Coe Int Offset where
  coe minutes := ⟨minutes * 60000000⟩

/-- A date, a time of day, and how far its zone is ahead of UTC. -/
structure Moment where
  date : Date
  hour : Nat
  minute : Nat
  second : Nat
  microsecond : Nat
  offset : Offset
  deriving DecidableEq, Repr

/-- The microseconds from the beginning of 1970, UTC, to a moment. -/
def Moment.sinceEpoch (m : Moment) : Int :=
  ((((m.date.dayNumber : Int) - epochDay) * 24 + m.hour) * 60 + m.minute) * 60000000 +
    m.second * 1000000 + m.microsecond - m.offset.microseconds

/-- A length of time: whole days, and what is left over, less than a day, in whole seconds and
microseconds. -/
structure Duration where
  days : Int
  seconds : Nat
  microseconds : Nat
  deriving DecidableEq, Repr

/-- The length of time of a number of microseconds; only its days can be negative. -/
def Duration.ofMicroseconds (n : Int) : Duration where
  days := n / 86400000000
  seconds := (n % 86400000000).toNat / 1000000
  microseconds := (n % 1000000).toNat

/-- The microseconds of a length of time. -/
def Duration.inMicroseconds (d : Duration) : Int :=
  (d.days * 86400 + d.seconds) * 1000000 + d.microseconds

/-- The moment in UTC that lies the given number of microseconds after the beginning of 1970. -/
def Moment.ofMicroseconds (n : Nat) : Moment :=
  let seconds := n / 1000000
  { date := .ofDayNumber (seconds / 86400 + epochDay)
    hour := seconds % 86400 / 3600
    minute := seconds % 3600 / 60
    second := seconds % 60
    microsecond := n % 1000000
    offset := .utc }

/-- A number with at least the given count of digits. -/
def padded (width n : Nat) : String :=
  let digits := Nat.toDigits 10 n
  String.ofList (List.replicate (width - digits.length) '0' ++ digits)

/-- The text of a moment in UTC; the fraction of a second is left out where it is zero. -/
def Moment.text (m : Moment) : String :=
  padded 4 m.date.year ++ "-" ++ padded 2 m.date.month ++ "-" ++ padded 2 m.date.day ++ "T" ++
    padded 2 m.hour ++ ":" ++ padded 2 m.minute ++ ":" ++ padded 2 m.second ++
    (if m.microsecond = 0 then "" else "." ++ padded 6 m.microsecond) ++ "+00:00"

end Lexicon.Calendar
