import FleetControl.Span

/-!
# Instants

An instant is a whole number of nanoseconds since 1970-01-01T00:00:00Z on the proleptic Gregorian
calendar. Dates run from the year -262143 to the year 262142; `Instant.last` is the last instant
that has a date, and a sum beyond it has none. A leap second shares the nanosecond count of the
second before it and is told apart by a flag.
-/

namespace FleetControl

/-- A point in time. -/
structure Instant where
  /-- Nanoseconds since the epoch. -/
  nanos : Int
  /-- Whether this is the sixtieth second of its minute. -/
  leap : Bool := false
  deriving DecidableEq, Repr, Inhabited

/-- A day of the proleptic Gregorian calendar. -/
structure CalendarDay where
  year : Int
  month : Nat
  day : Nat
  deriving DecidableEq, Repr

namespace CalendarDay

/-- Every fourth year has a 29 February, except centuries that 400 does not divide. -/
def isLeapYear (y : Int) : Bool := (y % 4 == 0 && y % 100 != 0) || y % 400 == 0

/-- The length of a month. -/
def monthLength (y : Int) (m : Nat) : Nat :=
  if m == 2 then (if isLeapYear y then 29 else 28)
  else if m == 4 || m == 6 || m == 9 || m == 11 then 30 else 31

/-- The first year with a date. -/
def firstYear : Int := -262143

/-- The last year with a date. -/
def lastYear : Int := 262142

/-- A day that exists and lies in a year with dates. -/
def valid (d : CalendarDay) : Bool :=
  firstYear ≤ d.year && d.year ≤ lastYear && 1 ≤ d.month && d.month ≤ 12 &&
    1 ≤ d.day && d.day ≤ monthLength d.year d.month

/-- Days since 1970-01-01. Years are counted from March, so that the leap day comes last, and in
cycles of 400 years, which all have 146097 days. -/
def toEpochDay (d : CalendarDay) : Int :=
  let y := if d.month ≤ 2 then d.year - 1 else d.year
  let cycle := y / 400
  let yearOfCycle := y - cycle * 400
  let monthFromMarch : Int := if 2 < d.month then (d.month : Int) - 3 else (d.month : Int) + 9
  let dayOfYear := (153 * monthFromMarch + 2) / 5 + (d.day : Int) - 1
  let dayOfCycle := yearOfCycle * 365 + yearOfCycle / 4 - yearOfCycle / 100 + dayOfYear
  cycle * 146097 + dayOfCycle - 719468

/-- The day with a given number of days since 1970-01-01. -/
def ofEpochDay (n : Int) : CalendarDay :=
  let z := n + 719468
  let cycle := z / 146097
  let dayOfCycle := z - cycle * 146097
  let yearOfCycle :=
    (dayOfCycle - dayOfCycle / 1460 + dayOfCycle / 36524 - dayOfCycle / 146096) / 365
  let dayOfYear := dayOfCycle - (365 * yearOfCycle + yearOfCycle / 4 - yearOfCycle / 100)
  let monthFromMarch := (5 * dayOfYear + 2) / 153
  let day := dayOfYear - (153 * monthFromMarch + 2) / 5 + 1
  let month := if monthFromMarch < 10 then monthFromMarch + 3 else monthFromMarch - 9
  let year := yearOfCycle + cycle * 400
  ⟨if month ≤ 2 then year + 1 else year, month.toNat, day.toNat⟩

end CalendarDay

namespace Instant

/-- Nanoseconds in a day. -/
def perDay : Int := 86400 * 1000000000

/-- The last instant that has a date: the last nanosecond of the year 262142. -/
def last : Instant :=
  ⟨((CalendarDay.mk 262142 12 31).toEpochDay + 1) * perDay - 1, false⟩

/-- The first instant that has a date. -/
def first : Instant := ⟨(CalendarDay.mk (-262143) 1 1).toEpochDay * perDay, false⟩

/-- Whether the instant has a date. -/
def hasDate (t : Instant) : Bool := first.nanos ≤ t.nanos && t.nanos ≤ last.nanos

/-- The instant a span later. -/
def add (t : Instant) (s : Span) : Instant := ⟨t.nanos + s.nanos, false⟩

/-- The instant a span later, if it has a date. -/
def add? (t : Instant) (s : Span) : Option Instant :=
  if (t.add s).nanos ≤ last.nanos then some (t.add s) else none

end Instant

end FleetControl
