import MetricQuery.Text.Character

/-!
# Instants

Points in time, in UTC, to the nanosecond. A leap second is the second half of a
doubled last second, so its nanoseconds start at a thousand million. Dates are
those of the Gregorian calendar, counted backwards and forwards without end. The
calendar repeats every 400 years; within them a year is taken to begin in March,
so that the leap day is its last.
-/

set_option autoImplicit false

namespace MetricQuery

/-! ## The calendar -/

structure Date where
  year : Int
  month : Nat
  day : Nat
  deriving DecidableEq, Repr

namespace Date

def isLeapYear (year : Int) : Bool :=
  year % 4 == 0 && (year % 100 != 0 || year % 400 == 0)

def daysInMonth (year : Int) (month : Nat) : Nat :=
  match month with
  | 2 => if isLeapYear year then 29 else 28
  | 4 | 6 | 9 | 11 => 30
  | _ => 31

def firstYear : Int := -262143

def lastYear : Int := 262142

def isValid (date : Date) : Bool :=
  firstYear ≤ date.year && date.year ≤ lastYear && 1 ≤ date.month && date.month ≤ 12 &&
    1 ≤ date.day && date.day ≤ daysInMonth date.year date.month

def daysInCycle : Int := 146097

/-- Days from the first of March of the year 0 to the first of January 1970. -/
def epochOffset : Int := 719468

def toDays (date : Date) : Int :=
  let year := if date.month ≤ 2 then date.year - 1 else date.year
  let month : Int := if date.month ≤ 2 then date.month + 9 else date.month - 3
  let yearOfCycle := year % 400
  let dayOfYear := (153 * month + 2) / 5 + date.day - 1
  let dayOfCycle := yearOfCycle * 365 + yearOfCycle / 4 - yearOfCycle / 100 + dayOfYear
  year / 400 * daysInCycle + dayOfCycle - epochOffset

def ofDays (days : Int) : Date :=
  let shifted := days + epochOffset
  let dayOfCycle := shifted % daysInCycle
  let yearOfCycle :=
    (dayOfCycle - dayOfCycle / 1460 + dayOfCycle / 36524 - dayOfCycle / 146096) / 365
  let dayOfYear := dayOfCycle - (365 * yearOfCycle + yearOfCycle / 4 - yearOfCycle / 100)
  let month := (5 * dayOfYear + 2) / 153
  let day := dayOfYear - (153 * month + 2) / 5 + 1
  let year := shifted / daysInCycle * 400 + yearOfCycle
  if month < 10 then ⟨year, (month + 3).toNat, day.toNat⟩
  else ⟨year + 1, (month - 9).toNat, day.toNat⟩

end Date

/-! ## Instants -/

/-- Seconds since the first of January 1970, and the nanoseconds after them. -/
structure Instant where
  seconds : Int
  nanos : Nat
  deriving DecidableEq, Repr

structure ClockTime where
  date : Date
  hour : Nat
  minute : Nat
  second : Nat
  nanos : Nat
  deriving DecidableEq, Repr

namespace Instant

def secondsInDay : Int := 86400

def nanosInSecond : Nat := 1000000000

def isValid (instant : Instant) : Bool :=
  (Date.mk Date.firstYear 1 1).toDays * secondsInDay ≤ instant.seconds &&
    instant.seconds < ((Date.mk Date.lastYear 12 31).toDays + 1) * secondsInDay

def ofMillis? (millis : Int) : Option Instant :=
  let instant : Instant := ⟨millis / 1000, (millis % 1000).toNat * 1000000⟩
  if instant.isValid then some instant else none

/-- Milliseconds since the first of January 1970; a leap second counts on from
the second before it. -/
def toMillis (instant : Instant) : Int :=
  instant.seconds * 1000 + instant.nanos / 1000000

def toClock (instant : Instant) : ClockTime :=
  let secondOfDay := (instant.seconds % secondsInDay).toNat
  let leap := if nanosInSecond ≤ instant.nanos then 1 else 0
  { date := Date.ofDays (instant.seconds / secondsInDay)
    hour := secondOfDay / 3600
    minute := secondOfDay / 60 % 60
    second := secondOfDay % 60 + leap
    nanos := instant.nanos - leap * nanosInSecond }

/-- The instant of a clock time that is `offset` seconds ahead of UTC, if its
fields are those of a clock and it lies in a year of the calendar. -/
def ofClock? (clock : ClockTime) (offset : Int) : Option Instant :=
  if clock.date.isValid && clock.hour ≤ 23 && clock.minute ≤ 59 && clock.second ≤ 60 then
    let second := min clock.second 59
    let leap := clock.second - second
    let instant : Instant := {
      seconds := clock.date.toDays * secondsInDay + clock.hour * 3600 + clock.minute * 60 +
        second - offset
      nanos := clock.nanos + leap * nanosInSecond }
    if instant.isValid then some instant else none
  else none

end Instant

/-! ## Texts -/

/-- A year with at least four digits, and a sign outside of 0 to 9999. -/
def yearText (year : Int) : List Char :=
  let digits := Text.paddedDigits 4 year.natAbs
  if year < 0 then '-' :: digits
  else if 9999 < year then '+' :: digits
  else digits

def Date.text (date : Date) : List Char :=
  yearText date.year ++ '-' :: Text.paddedDigits 2 date.month ++
    '-' :: Text.paddedDigits 2 date.day

def ClockTime.timeText (clock : ClockTime) : List Char :=
  Text.paddedDigits 2 clock.hour ++ ':' :: Text.paddedDigits 2 clock.minute ++
    ':' :: Text.paddedDigits 2 clock.second

/-- The fraction of a second in thousands, to the last group that is not zero. -/
def fractionText (nanos : Nat) : List Char :=
  if nanos = 0 then []
  else if nanos % 1000000 = 0 then '.' :: Text.paddedDigits 3 (nanos / 1000000)
  else if nanos % 1000 = 0 then '.' :: Text.paddedDigits 6 (nanos / 1000)
  else '.' :: Text.paddedDigits 9 nanos

namespace Instant

def text (instant : Instant) : String :=
  let clock := instant.toClock
  String.ofList (clock.date.text ++ ' ' :: clock.timeText)

def quoted (instant : Instant) : String :=
  "\"" ++ instant.text ++ "\""

def documentText (instant : Instant) : String :=
  let clock := instant.toClock
  String.ofList
    (clock.date.text ++ 'T' :: clock.timeText ++ fractionText clock.nanos ++ ['Z'])

end Instant

end MetricQuery
