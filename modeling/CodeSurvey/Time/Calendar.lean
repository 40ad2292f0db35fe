import CodeSurvey.Text.Basic

/-!
# The calendar

Days of the years 1 to 9999 and times of day, the number of a day counted from the first day of
year one, and days given by year, week and day of the week.

A moment is a day and a time with an offset from universal time. Two texts are written for it: the
full one, and the universal one with milliseconds, which only moments within the years 1 to 9999 of
universal time have.
-/

namespace CodeSurvey.Time

open CodeSurvey.Text (padded)

/-- A day of the calendar. -/
structure Day where
  year : Nat
  month : Nat
  day : Nat
  deriving Repr, DecidableEq

/-- A time of day. -/
structure Clock where
  hour : Nat
  minute : Nat
  second : Nat
  micro : Nat
  deriving Repr, DecidableEq

/-- A day in digits. -/
def Day.text (d : Day) : String :=
  padded 4 d.year ++ "-" ++ padded 2 d.month ++ "-" ++ padded 2 d.day

/-- A time in digits; the microseconds are left out when there are none. -/
def Clock.text (c : Clock) : String :=
  padded 2 c.hour ++ ":" ++ padded 2 c.minute ++ ":" ++ padded 2 c.second ++
    (if c.micro = 0 then "" else "." ++ padded 6 c.micro)

/-- A time in digits with milliseconds; what is below them is dropped. -/
def Clock.milliText (c : Clock) : String :=
  padded 2 c.hour ++ ":" ++ padded 2 c.minute ++ ":" ++ padded 2 c.second ++ "." ++
    padded 3 (c.micro / 1000)

/-- The start of a day. -/
def Clock.midnight : Clock := ⟨0, 0, 0, 0⟩

/-- The last year of the calendar. -/
def lastYear : Nat := 9999

/-- Whether a year is a leap year. -/
def isLeapYear (y : Nat) : Bool := (y % 4 == 0 && y % 100 != 0) || y % 400 == 0

/-- The number of days of a month. -/
def daysIn (y m : Nat) : Nat :=
  if m = 2 then (if isLeapYear y then 29 else 28)
  else if m = 4 ∨ m = 6 ∨ m = 9 ∨ m = 11 then 30 else 31

/-- A day that is on the calendar. -/
def day? (y m d : Nat) : Option Day :=
  if 1 ≤ y ∧ y ≤ lastYear ∧ 1 ≤ m ∧ m ≤ 12 ∧ 1 ≤ d ∧ d ≤ daysIn y m then some ⟨y, m, d⟩ else none

/-- A time that is on the clock. -/
def clock? (h m s us : Nat) : Option Clock :=
  if h < 24 ∧ m < 60 ∧ s < 60 ∧ us < 1000000 then some ⟨h, m, s, us⟩ else none

/-- The number of days before a year. -/
def daysBeforeYear (y : Nat) : Nat := (y - 1) * 365 + (y - 1) / 4 - (y - 1) / 100 + (y - 1) / 400

/-- The number of days of a year before a month. -/
def daysBeforeMonth (y m : Nat) : Nat :=
  (List.range (m - 1)).foldl (fun days i => days + daysIn y (i + 1)) 0

/-- The number of a day: the first day of year one has the number zero. -/
def Day.number (d : Day) : Nat :=
  daysBeforeYear d.year + daysBeforeMonth d.year d.month + (d.day - 1)

/-- The number of days that the calendar has. -/
def dayCount : Nat := daysBeforeYear (lastYear + 1)

/-- The year of a day by its number, counting the cycles of 400, 100 and 4 years and the years that
are over. -/
def yearOf (n : Nat) : Nat :=
  let r400 := n % 146097
  let n100 := min 3 (r400 / 36524)
  let r100 := r400 - n100 * 36524
  let r4 := r100 % 1461
  n / 146097 * 400 + n100 * 100 + r100 / 1461 * 4 + min 3 (r4 / 365) + 1

/-- The month and the day of the month of the day with a number in the year, among the given
months. -/
def monthDay (y : Nat) : List Nat → Nat → Nat × Nat
  | [], n => (12, n + 1)
  | m :: months, n => if n < daysIn y m then (m, n + 1) else monthDay y months (n - daysIn y m)

/-- The months of a year. -/
def months : List Nat := [1, 2, 3, 4, 5, 6, 7, 8, 9, 10, 11, 12]

/-- The day of a number. -/
def Day.ofNumber (n : Nat) : Day :=
  let y := yearOf n
  let (m, d) := monthDay y months (n - daysBeforeYear y)
  ⟨y, m, d⟩

/-- The day of the week of the day with a number; Monday is zero. The first day of year one is a
Monday. -/
def weekDay (n : Nat) : Nat := n % 7

/-- Whether a year has 53 weeks: it begins on a Thursday, or on a Wednesday if it is a leap year. -/
def isLongYear (y : Nat) : Bool :=
  let first := weekDay (daysBeforeYear y)
  first == 3 || (first == 2 && isLeapYear y)

/-- The day of a year by week and day of the week, both from one. The first week is the one with
the year's first Thursday. -/
def weekDay? (y week d : Nat) : Option Day :=
  if y < 1 ∨ lastYear < y ∨ week < 1 ∨ 53 < week ∨ (week = 53 ∧ !isLongYear y) ∨ d < 1 ∨ 7 < d then
    none
  else
    let first := daysBeforeYear y
    let inWeeks := (week - 1) * 7 + (d - 1)
    let n := if weekDay first ≤ 3 then (first + inWeeks : Int) - weekDay first
      else first + 7 + inWeeks - weekDay first
    if n < 0 ∨ dayCount ≤ n then none else some (Day.ofNumber n.toNat)

/-! ## Moments -/

/-- A moment. -/
structure Moment where
  day : Day
  clock : Clock
  /-- The microseconds that the place is ahead of universal time. -/
  offset : Int
  deriving Repr, DecidableEq

/-- The microseconds of a second. -/
def microsPerSecond : Nat := 1000000

/-- The microseconds of a day. -/
def microsPerDay : Nat := 86400 * microsPerSecond

/-- The microseconds since the start of the day. -/
def Clock.micros (c : Clock) : Nat :=
  ((c.hour * 60 + c.minute) * 60 + c.second) * microsPerSecond + c.micro

/-- The time of day of a number of microseconds since its start. -/
def Clock.ofMicros (n : Nat) : Clock :=
  let s := n / microsPerSecond
  ⟨s / 3600, s / 60 % 60, s % 60, n % microsPerSecond⟩

/-- An offset in hours and minutes, and in seconds and microseconds if it has any. -/
def offsetText (offset : Int) : String :=
  let c := Clock.ofMicros offset.natAbs
  (if offset < 0 then "-" else "+") ++ padded 2 c.hour ++ ":" ++ padded 2 c.minute ++
    (if c.second = 0 ∧ c.micro = 0 then "" else ":" ++ padded 2 c.second) ++
    (if c.micro = 0 then "" else "." ++ padded 6 c.micro)

namespace Moment

/-- The full text of a moment. -/
def text (m : Moment) : String := m.day.text ++ "T" ++ m.clock.text ++ offsetText m.offset

/-- The microseconds of universal time from the start of year one to a moment. -/
def instant (m : Moment) : Int := (m.day.number * microsPerDay + m.clock.micros : Nat) - m.offset

/-- The moment of universal time at a number of microseconds from the start of year one. -/
def ofInstant (n : Nat) : Moment :=
  ⟨Day.ofNumber (n / microsPerDay), Clock.ofMicros (n % microsPerDay), 0⟩

/-- The same moment in universal time, if it is within the calendar there. -/
def universal? (m : Moment) : Option Moment :=
  if 0 ≤ m.instant ∧ m.instant < dayCount * microsPerDay then some (ofInstant m.instant.toNat)
  else none

/-- The text of a moment in universal time, down to milliseconds. -/
def universalText? (m : Moment) : Option String :=
  m.universal?.map fun u => u.day.text ++ "T" ++ u.clock.milliText ++ "Z"

end Moment

end CodeSurvey.Time
