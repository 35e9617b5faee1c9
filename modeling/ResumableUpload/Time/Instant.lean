/-!
# Instants of the UTC calendar

An instant is a date of the proleptic Gregorian calendar and a time of day, down to the
nanosecond. A leap second is written as nanoseconds beyond the 59th second's own: its `nanos` are
at least 10 ^ 9. A local time becomes UTC by moving it by less than a day, so the date moves to the
next or the previous day at most.
-/

namespace ResumableUpload

/-- A date of the proleptic Gregorian calendar. -/
structure Date where
  year : Int
  month : Nat
  day : Nat
  deriving DecidableEq, Repr

namespace Date

def isLeapYear (year : Int) : Bool := year % 4 = 0 && (year % 100 != 0 || year % 400 = 0)

/-- The number of days of a month. -/
def daysInMonth (year : Int) (month : Nat) : Nat :=
  if month = 2 then if isLeapYear year then 29 else 28
  else if month = 4 ∨ month = 6 ∨ month = 9 ∨ month = 11 then 30
  else 31

/-- The years that a date can be in. -/
def firstYear : Int := -262143
def lastYear : Int := 262142

/-- Is this a day of the calendar? -/
def isValid (d : Date) : Bool :=
  firstYear ≤ d.year && d.year ≤ lastYear && 1 ≤ d.month && d.month ≤ 12 && 1 ≤ d.day &&
    d.day ≤ daysInMonth d.year d.month

/-- The day after. -/
def next (d : Date) : Date :=
  if d.day < daysInMonth d.year d.month then { d with day := d.day + 1 }
  else if d.month < 12 then ⟨d.year, d.month + 1, 1⟩
  else ⟨d.year + 1, 1, 1⟩

/-- The day before. -/
def previous (d : Date) : Date :=
  if 1 < d.day then { d with day := d.day - 1 }
  else if 1 < d.month then ⟨d.year, d.month - 1, daysInMonth d.year (d.month - 1)⟩
  else ⟨d.year - 1, 12, 31⟩

end Date

/-- A point in time, in UTC. -/
structure Instant where
  date : Date
  hour : Nat
  minute : Nat
  second : Nat
  nanos : Nat
  deriving DecidableEq, Repr

namespace Instant

/-- A date of the calendar and a time of day; only in the 59th second may the nanoseconds reach
into a leap second. -/
def isValid (t : Instant) : Bool :=
  t.date.isValid && t.hour < 24 && t.minute < 60 && t.second < 60 && t.nanos < 2000000000 &&
    (t.nanos < 1000000000 || t.second = 59)

/-- The instant at which clocks `minutes` ahead of UTC show the local time `t`. `none` if it falls
outside the calendar's years. -/
def ofLocal? (t : Instant) (minutes : Int) : Option Instant :=
  let total : Int := t.hour * 60 + t.minute - minutes
  let date := if total < 0 then t.date.previous else if 1440 ≤ total then t.date.next else t.date
  let inDay := (total % 1440).toNat
  if date.isValid then some { t with date, hour := inDay / 60, minute := inDay % 60 } else none

end Instant

end ResumableUpload
