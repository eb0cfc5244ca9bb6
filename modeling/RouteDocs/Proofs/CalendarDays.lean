import Mathlib.Data.Nat.Init
import RouteDocs.Calendar

/-!
# `RouteDocs.Proofs.CalendarDays`: days are counted one by one

A moment is compared and moved by its instant, which counts the days of the calendar before it
(`Date.dayNumber`). The count is a formula over years, leap years and months. This module says
that it is the right one: it starts at zero, and the day after a day has the next number
(`dayNumber_next`), over the ends of months and years and on the 29th of February.

Two days of the calendar have different numbers (`dayNumber_inj`), and so two moments with one
offset are at different instants (`Moment.eq_of_instant?_eq`). Whichever way an instant is
taken back to a date and time of day, there is one moment it can come to.
-/

set_option autoImplicit false

namespace RouteDocs

namespace Date

/-- How many days the years before this one have. -/
def daysBeforeYear (year : Nat) : Nat :=
  let y := year - 1
  365 * y + y / 4 - y / 100 + y / 400

/-- How many days a year has. -/
def yearLength (year : Nat) : Nat := if isLeapYear year then 366 else 365

/-- The day of the year, from zero on. -/
def dayOfYear (d : Date) : Nat := daysInFirst d.year (d.month - 1) + (d.day - 1)

/-- The number of a day is that of the days before its year, and its number in the year. -/
theorem dayNumber_eq (d : Date) : d.dayNumber = daysBeforeYear d.year + d.dayOfYear := by
  simp only [dayNumber, daysBeforeYear, dayOfYear]
  omega

/-- A date is one of the calendar exactly if year, month and day are in their bounds. -/
theorem isValid_iff (d : Date) :
    d.isValid = true ↔ (1 ≤ d.year ∧ d.year ≤ 9999) ∧ (1 ≤ d.month ∧ d.month ≤ 12) ∧
      1 ≤ d.day ∧ d.day ≤ daysIn d.year d.month := by
  simp only [isValid, Bool.and_eq_true, decide_eq_true_eq, and_assoc]

/-! ### Years -/

/-- From one year to the next the count goes up by the length of the year. -/
theorem daysBeforeYear_succ {year : Nat} (h : 1 ≤ year) :
    daysBeforeYear (year + 1) = daysBeforeYear year + yearLength year := by
  obtain ⟨y, rfl⟩ : ∃ y, year = y + 1 := ⟨year - 1, by omega⟩
  -- Each of the three quotients grows by one at a multiple of its divisor.
  have hquarters : (y + 1) / 4 = y / 4 + if 4 ∣ y + 1 then 1 else 0 := Nat.succ_div
  have hcenturies : (y + 1) / 100 = y / 100 + if 100 ∣ y + 1 then 1 else 0 := Nat.succ_div
  have hcycles : (y + 1) / 400 = y / 400 + if 400 ∣ y + 1 then 1 else 0 := Nat.succ_div
  have hle : y / 100 ≤ y / 4 := Nat.div_le_div_left (by omega) (by omega)
  have hcentury : 100 ∣ y + 1 → 4 ∣ y + 1 := Nat.dvd_trans ⟨25, rfl⟩
  have hcycle : 400 ∣ y + 1 → 100 ∣ y + 1 := Nat.dvd_trans ⟨4, rfl⟩
  simp only [daysBeforeYear, yearLength, isLeapYear, Nat.add_sub_cancel, hquarters, hcenturies,
    hcycles, Bool.and_eq_true, Bool.or_eq_true, beq_iff_eq, bne_iff_ne, ne_eq,
    ← Nat.dvd_iff_mod_eq_zero]
  by_cases h4 : 4 ∣ y + 1
  · by_cases h100 : 100 ∣ y + 1
    · by_cases h400 : 400 ∣ y + 1
      · simp only [h4, h100, h400, not_true, or_true, and_true, if_true]
        omega
      · simp only [h4, h100, h400, not_true, or_self, and_false, if_true, if_false]
        omega
    · simp only [h4, h100, mt hcycle h100, not_false_iff, true_or, and_true, if_true, if_false]
      omega
  · simp only [h4, mt hcentury h4, mt hcycle (mt hcentury h4), false_and, if_false]
    omega

/-- Later years have more days before them. -/
theorem daysBeforeYear_mono {year later : Nat} (h : 1 ≤ year) (hle : year ≤ later) :
    daysBeforeYear year ≤ daysBeforeYear later := by
  induction hle with
  | refl => exact Nat.le_refl _
  | step hle ih =>
      rw [daysBeforeYear_succ (Nat.le_trans h hle)]
      omega

/-- No month has more than 31 days. -/
theorem daysIn_le (year month : Nat) : daysIn year month ≤ 31 := by
  unfold daysIn
  split
  · split <;> omega
  · split <;> omega

/-- No month is without a day. -/
theorem daysIn_pos (year month : Nat) : 1 ≤ daysIn year month := by
  unfold daysIn
  split
  · split <;> omega
  · split <;> omega

/-- The twelve months make a year. -/
theorem daysInFirst_twelve (year : Nat) : daysInFirst year 12 = yearLength year := by
  simp only [daysInFirst, daysIn, yearLength]
  cases isLeapYear year <;> rfl

/-! ### Months -/

/-- More months have more days. -/
theorem daysInFirst_mono (year : Nat) {months later : Nat} (hle : months ≤ later) :
    daysInFirst year months ≤ daysInFirst year later := by
  induction hle with
  | refl => exact Nat.le_refl _
  | step _ ih => exact Nat.le_trans ih (Nat.le_add_right _ _)

/-- The days of a month come after those of the months before it, and the month ends with its
length. -/
theorem dayOfYear_bounds {d : Date} (h : d.isValid = true) :
    daysInFirst d.year (d.month - 1) ≤ d.dayOfYear ∧
      d.dayOfYear < daysInFirst d.year d.month := by
  obtain ⟨-, hmonth, hday⟩ := d.isValid_iff.mp h
  have hlast : daysInFirst d.year d.month
      = daysInFirst d.year (d.month - 1) + daysIn d.year d.month := by
    obtain ⟨months, hmonths⟩ : ∃ months, d.month = months + 1 := ⟨d.month - 1, by omega⟩
    rw [hmonths]
    rfl
  rw [dayOfYear, hlast]
  omega

/-- A day of the calendar is one of its year. -/
theorem dayOfYear_lt {d : Date} (h : d.isValid = true) : d.dayOfYear < yearLength d.year := by
  have hmonth : d.month ≤ 12 := (d.isValid_iff.mp h).2.1.2
  calc d.dayOfYear < daysInFirst d.year d.month := (dayOfYear_bounds h).2
    _ ≤ daysInFirst d.year 12 := daysInFirst_mono d.year hmonth
    _ = yearLength d.year := daysInFirst_twelve d.year

/-! ### Days -/

/-- Days of an earlier year have smaller numbers. -/
theorem dayNumber_lt_of_year_lt {d e : Date} (hd : d.isValid = true) (hyear : d.year < e.year) :
    d.dayNumber < e.dayNumber := by
  have hfirst : 1 ≤ d.year := (d.isValid_iff.mp hd).1.1
  calc d.dayNumber < daysBeforeYear d.year + yearLength d.year := by
        rw [dayNumber_eq]
        exact Nat.add_lt_add_left (dayOfYear_lt hd) _
    _ = daysBeforeYear (d.year + 1) := (daysBeforeYear_succ hfirst).symm
    _ ≤ daysBeforeYear e.year := daysBeforeYear_mono (by omega) hyear
    _ ≤ e.dayNumber := by rw [dayNumber_eq]; exact Nat.le_add_right _ _

/-- Of one year, days of an earlier month have smaller numbers. -/
theorem dayNumber_lt_of_month_lt {d e : Date} (hd : d.isValid = true) (he : e.isValid = true)
    (hyear : d.year = e.year) (hmonth : d.month < e.month) : d.dayNumber < e.dayNumber := by
  have hmonths : daysInFirst d.year d.month ≤ daysInFirst e.year (e.month - 1) := by
    rw [hyear]
    exact daysInFirst_mono e.year (by omega)
  have hbefore := (dayOfYear_bounds hd).2
  have hafter := (dayOfYear_bounds he).1
  rw [dayNumber_eq, dayNumber_eq, hyear]
  omega

/-- Different days of the calendar have different numbers. -/
theorem dayNumber_inj {d e : Date} (hd : d.isValid = true) (he : e.isValid = true) :
    d.dayNumber = e.dayNumber ↔ d = e := by
  refine ⟨fun h => ?_, fun h => congrArg dayNumber h⟩
  -- Year, month and day are found equal in turn.
  have hyear : d.year = e.year := by
    rcases Nat.lt_trichotomy d.year e.year with hlt | heq | hlt
    · exact absurd h (Nat.ne_of_lt (dayNumber_lt_of_year_lt hd hlt))
    · exact heq
    · exact absurd h.symm (Nat.ne_of_lt (dayNumber_lt_of_year_lt he hlt))
  have hmonth : d.month = e.month := by
    rcases Nat.lt_trichotomy d.month e.month with hlt | heq | hlt
    · exact absurd h (Nat.ne_of_lt (dayNumber_lt_of_month_lt hd he hyear hlt))
    · exact heq
    · exact absurd h.symm (Nat.ne_of_lt (dayNumber_lt_of_month_lt he hd hyear.symm hlt))
  obtain ⟨year, month, day⟩ := d
  obtain ⟨year', month', day'⟩ := e
  obtain rfl : year = year' := hyear
  obtain rfl : month = month' := hmonth
  have hday := ((isValid_iff _).mp hd).2.2.1
  have hday' := ((isValid_iff _).mp he).2.2.1
  simp only [dayNumber_eq, dayOfYear] at h hday hday'
  obtain rfl : day = day' := by omega
  rfl

/-- The day after this one. -/
def next (d : Date) : Date :=
  if d.day < daysIn d.year d.month then { d with day := d.day + 1 }
  else if d.month < 12 then { d with month := d.month + 1, day := 1 }
  else ⟨d.year + 1, 1, 1⟩

/-- The count starts at zero and goes up by one from day to day. -/
theorem dayNumber_next {d : Date} (h : d.isValid = true) :
    dayNumber ⟨1, 1, 1⟩ = 0 ∧ d.next.dayNumber = d.dayNumber + 1 := by
  obtain ⟨hyear, hmonth, hday⟩ := d.isValid_iff.mp h
  refine ⟨rfl, ?_⟩
  obtain ⟨year, month, day⟩ := d
  simp only at hyear hmonth hday
  -- The days of a year are counted by the months that have passed.
  obtain ⟨months, rfl⟩ : ∃ months, month = months + 1 := ⟨month - 1, by omega⟩
  have hmonths : daysInFirst year (months + 1)
      = daysInFirst year months + daysIn year (months + 1) := rfl
  rw [next]
  simp only [dayNumber_eq, dayOfYear, Nat.add_sub_cancel]
  split
  · -- The next day of the month.
    simp only [Nat.add_sub_cancel]
    omega
  · split
    · -- The first day of the next month.
      simp only [Nat.add_sub_cancel, hmonths]
      omega
    · -- The first day of the next year.
      obtain rfl : months = 11 := by omega
      have hyearLength := (daysInFirst_twelve year).symm.trans hmonths
      have hfirst : daysInFirst (year + 1) 0 = 0 := rfl
      simp only [Nat.sub_self, hfirst, daysBeforeYear_succ hyear.1, hyearLength]
      omega

/-- The day before a day of the calendar is one that it comes after. -/
theorem next_previous? {d e : Date} (hd : d.isValid = true) (h : d.previous? = some e) :
    e.isValid = true ∧ e.next = d := by
  obtain ⟨hyear, hmonth, hday⟩ := d.isValid_iff.mp hd
  rw [isValid_iff]
  obtain ⟨year, month, day⟩ := d
  simp only [previous?] at h hyear hmonth hday
  -- The day before is in the month, in the month before, or in the year before.
  by_cases hfirst : 1 < day
  · rw [if_pos hfirst, Option.some.injEq] at h
    subst h
    have hearlier : day - 1 < daysIn year month := by omega
    refine ⟨⟨hyear, hmonth, Nat.le_sub_one_of_lt hfirst, Nat.le_of_lt hearlier⟩, ?_⟩
    rw [next, if_pos hearlier, Nat.sub_add_cancel hday.1]
  obtain rfl : day = 1 := by omega
  rw [if_neg hfirst] at h
  by_cases hmonths : 1 < month
  · -- The last day of the month before.
    rw [if_pos hmonths, Option.some.injEq] at h
    subst h
    refine ⟨⟨hyear, by simp only; omega, daysIn_pos _ _, Nat.le_refl _⟩, ?_⟩
    rw [next, if_neg (Nat.lt_irrefl _), if_pos (by simp only; omega),
      Nat.sub_add_cancel hmonth.1]
  · -- The last day of the year before.
    obtain rfl : month = 1 := by omega
    rw [if_neg hmonths] at h
    split at h
    · cases h
      have hlength : daysIn (year - 1) 12 = 31 := rfl
      refine ⟨⟨by simp only; omega, by simp, Nat.le_add_left 1 30, Nat.le_of_eq hlength.symm⟩, ?_⟩
      simp only [next, hlength, Nat.lt_irrefl, if_false, Nat.sub_add_cancel hyear.1]
    · cases h

end Date

namespace Moment

/-- A moment is one of the calendar exactly if its date is, the parts of its time are in their
bounds, and its offset is less than a day. -/
theorem isValid_iff (m : Moment) :
    m.isValid = true ↔ m.date.isValid = true ∧ m.hour < 24 ∧ m.minute < 60 ∧ m.second < 60 ∧
      m.microsecond < 1000000 ∧ ∀ o, m.offset = some o → o.microseconds.natAbs < Offset.limit := by
  simp only [isValid, Bool.and_eq_true, decide_eq_true_eq, and_assoc]
  cases m.offset <;> simp

/-- There are no two moments with one offset at one instant. -/
theorem eq_of_instant?_eq {m n : Moment} (hm : m.isValid = true) (hn : n.isValid = true)
    {o : Offset} (hmo : m.offset = some o) (hno : n.offset = some o)
    (h : m.instant? = n.instant?) : m = n := by
  obtain ⟨hdate, hhour, hminute, hsecond, hmicro, -⟩ := m.isValid_iff.mp hm
  obtain ⟨hdate', hhour', hminute', hsecond', hmicro', -⟩ := n.isValid_iff.mp hn
  simp only [instant?, hmo, hno, Option.map_some, Option.some.injEq, secondOfDay] at h
  -- Every part of the time of day is smaller than one of the next larger unit.
  have hseconds : 86400 * m.date.dayNumber + (3600 * m.hour + 60 * m.minute + m.second)
      = 86400 * n.date.dayNumber + (3600 * n.hour + 60 * n.minute + n.second) := by omega
  have hmicros : m.microsecond = n.microsecond := by omega
  have hday : m.date.dayNumber = n.date.dayNumber := by omega
  have hhours : m.hour = n.hour := by omega
  have hminutes : m.minute = n.minute := by omega
  have hsecs : m.second = n.second := by omega
  have hdates : m.date = n.date := (Date.dayNumber_inj hdate hdate').mp hday
  cases m
  cases n
  exact (mk.injEq ..).mpr ⟨hdates, hhours, hminutes, hsecs, hmicros, hmo.trans hno.symm⟩

end Moment

end RouteDocs
