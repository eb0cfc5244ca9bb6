import RouteDocs.Fault
import RouteDocs.Number.Binary64
import RouteDocs.Number.Notation

/-!
# `RouteDocs.Calendar`: dates and moments

A settings file or a property block may hold dates and timestamps, and a synthesised
date is a moment of the current month. Dates are those of the proleptic Gregorian
calendar from year 1 to year 9999. A moment is a date with a time of day to the
microsecond and, unless it floats, an offset from universal time, also to the microsecond.

A moment of the month is made from a time stamp: the seconds since 1970 in universal time,
as a double-precision number. A time stamp of whole seconds is exact. With a part of a
second in the offset it is rounded, in a distant year by more than half a microsecond, and
then the moment that is made is not the one that was meant.
-/

set_option autoImplicit false

namespace RouteDocs

open Number

/-- A day of the calendar. -/
structure Date where
  /-- From 1 to 9999. -/
  year : Nat
  /-- From 1 to 12. -/
  month : Nat
  /-- From 1 to the length of the month. -/
  day : Nat
deriving DecidableEq, Repr

namespace Date

/-- Whether February of this year has 29 days. -/
def isLeapYear (year : Nat) : Bool := year % 4 == 0 && (year % 100 != 0 || year % 400 == 0)

/-- The length of a month in days. -/
def daysIn (year month : Nat) : Nat :=
  if month = 2 then (if isLeapYear year then 29 else 28)
  else if [4, 6, 9, 11].contains month then 30
  else 31

/-- Whether the three numbers name a day. -/
def isValid (d : Date) : Bool :=
  1 ≤ d.year && d.year ≤ 9999 && 1 ≤ d.month && d.month ≤ 12 &&
    1 ≤ d.day && d.day ≤ daysIn d.year d.month

/-- How many days the first `months` months of a year have. -/
def daysInFirst (year : Nat) : (months : Nat) → Nat
  | 0 => 0
  | months + 1 => daysInFirst year months + daysIn year (months + 1)

/-- How many days of the calendar come before this one. -/
def dayNumber (d : Date) : Nat :=
  let y := d.year - 1
  365 * y + y / 4 - y / 100 + y / 400 + daysInFirst d.year (d.month - 1) + (d.day - 1)

/-- The day as year, month and day joined by hyphens. -/
def text (d : Date) : Text :=
  padded 4 d.year ++ "-" ++ padded 2 d.month ++ "-" ++ padded 2 d.day

/-- The day before, unless the calendar begins with this one. -/
def previous? (d : Date) : Option Date :=
  if 1 < d.day then some { d with day := d.day - 1 }
  else if 1 < d.month then some ⟨d.year, d.month - 1, daysIn d.year (d.month - 1)⟩
  else if 1 < d.year then some ⟨d.year - 1, 12, 31⟩
  else none

end Date

/-- How far a clock is ahead of universal time. -/
structure Offset where
  /-- In microseconds. A clock behind universal time has a negative offset. -/
  microseconds : Int
deriving DecidableEq, Repr

namespace Offset

/-- An offset of whole minutes, as most clocks have. -/
def ofMinutes (minutes : Int) : Offset := ⟨60000000 * minutes⟩

/-- A whole number stands for an offset of so many minutes. -/
instance : Coe Int Offset := ⟨ofMinutes⟩

/-- So does a numeral. -/
instance (n : Nat) : OfNat Offset n := ⟨ofMinutes n⟩

/-- Microseconds in a day; an offset is smaller. -/
def limit : Nat := 86400000000

/-- An offset as a sign, hours and minutes. Seconds are shown when there are any or when
there are microseconds, and those when there are any. -/
def text (o : Offset) : Text :=
  let micros := o.microseconds.natAbs
  let seconds := micros / 1000000
  let fraction : Text := if micros % 1000000 = 0 then [] else "." ++ padded 6 (micros % 1000000)
  let small : Text :=
    if micros % 60000000 = 0 then [] else ":" ++ padded 2 (seconds % 60) ++ fraction
  (if o.microseconds < 0 then "-" else "+" : Text) ++ padded 2 (seconds / 3600) ++ ":" ++
    padded 2 (seconds / 60 % 60) ++ small

end Offset

/-- A date with a time of day. -/
structure Moment where
  /-- The day. -/
  date : Date
  /-- From 0 to 23. -/
  hour : Nat
  /-- From 0 to 59. -/
  minute : Nat
  /-- From 0 to 59. -/
  second : Nat
  /-- From 0 to 999999. -/
  microsecond : Nat
  /-- How far the clock that shows this is ahead of universal time. A moment without it
  floats. -/
  offset : Option Offset
deriving DecidableEq, Repr

namespace Moment

/-- Whether the fields name a moment. -/
def isValid (m : Moment) : Bool :=
  m.date.isValid && m.hour < 24 && m.minute < 60 && m.second < 60 && m.microsecond < 1000000 &&
    match m.offset with
    | none => true
    | some o => o.microseconds.natAbs < Offset.limit

/-- Whole seconds since midnight. -/
def secondOfDay (m : Moment) : Nat := 3600 * m.hour + 60 * m.minute + m.second

/-- Microseconds of universal time since the start of the calendar, unless the moment
floats. -/
def instant? (m : Moment) : Option Int :=
  m.offset.map fun o =>
    (86400 * m.date.dayNumber + m.secondOfDay : Nat) * 1000000 + m.microsecond - o.microseconds

/-- The moment in ISO 8601 form, with `divider` between date and time. Microseconds are
shown when there are any, the offset when there is one. -/
def text (divider : CodePoint) (m : Moment) : Text :=
  let fraction : Text := if m.microsecond = 0 then [] else "." ++ padded 6 m.microsecond
  let offset := (m.offset.map Offset.text).getD []
  m.date.text ++ [divider] ++ padded 2 m.hour ++ ":" ++ padded 2 m.minute ++ ":" ++
    padded 2 m.second ++ fraction ++ offset

/-- Midnight at the start of the month. -/
def monthStart (m : Moment) : Moment :=
  { m with date := { m.date with day := 1 }, hour := 0, minute := 0, second := 0, microsecond := 0 }

/-- Whole seconds from the start of the month to this moment. -/
def secondsIntoMonth (m : Moment) : Nat := 86400 * (m.date.day - 1) + m.secondOfDay

/-- The moment `seconds` after the start of the month of `m`, for a count that stays in
the month. -/
def intoMonth (m : Moment) (seconds : Nat) : Moment :=
  { m.monthStart with
    date := { m.date with day := 1 + seconds / 86400 }
    hour := seconds % 86400 / 3600
    minute := seconds % 3600 / 60
    second := seconds % 60 }

/-! ### Time stamps -/

/-- The microseconds of the calendar before 1970. -/
def epoch : Int := 86400000000 * ({ year := 1970, month := 1, day := 1 : Date }).dayNumber

/-- The microseconds of the whole calendar. -/
def calendarEnd : Int :=
  86400000000 * (({ year := 9999, month := 12, day := 31 : Date }).dayNumber + 1)

/-- Whether the moment, taken to universal time, still lies in the years 1 to 9999. -/
def isUniversal (m : Moment) : Bool :=
  match m.instant? with
  | none => true
  | some t => 0 ≤ t && t < calendarEnd

/-- The seconds from 1970 to an instant, as the nearest double. -/
def timeStamp (instant : Int) : Binary64 :=
  .ofRatio (instant - epoch < 0) (instant - epoch).natAbs 1000000

/-- The instant of a time stamp. What is left beside the whole seconds is rounded to
microseconds. -/
def ofTimeStamp (t : Binary64) : Int :=
  let (num, den) := Binary64.ratio t.rank
  let fraction := (Binary64.ofRatio false (num % den) den).mul (.ofInt 1000000)
  let (part, unit) := Binary64.ratio fraction.rank
  let micros : Int := (1000000 * (num / den) + roundDiv part unit : Nat)
  epoch + (if t.negative then -micros else micros)

/-- The moment so many microseconds after the start of the month of `m`, for a count that
stays in the month. A negative count leads to the day before. -/
def microsecondsIntoMonth (m : Moment) (micros : Int) : Except Fault Moment :=
  if 0 ≤ micros then
    .ok { m.intoMonth (micros.toNat / 1000000) with microsecond := micros.toNat % 1000000 }
  else match m.monthStart.date.previous? with
    | none => .error .tooLarge
    | some day =>
      let left := (86400000000 + micros).toNat
      let seconds := left / 1000000
      .ok {
        date := day
        hour := seconds / 3600
        minute := seconds % 3600 / 60
        second := seconds % 60
        microsecond := left % 1000000
        offset := m.offset }

/-- The moment `seconds` after the start of the month of `m`, made from its time stamp. There
is none where universal time is outside of the calendar. A moment that floats has no time
stamp and is made as it is. -/
def drawn (m : Moment) (seconds : Nat) : Except Fault Moment :=
  match m.monthStart.instant? with
  | none => .ok (m.intoMonth seconds)
  | some start =>
    let instant := ofTimeStamp ((timeStamp start).add (.ofInt seconds))
    if 0 ≤ instant && instant < calendarEnd then m.microsecondsIntoMonth (instant - start)
    else .error .badValue

end Moment

end RouteDocs
