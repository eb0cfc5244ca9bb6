import RouteDocs.Proofs.CalendarDays
import RouteDocs.Proofs.ClockEdge
import RouteDocs.Proofs.RoundingError

/-!
# `RouteDocs.Proofs.TimeStamps`: moments that go through a double

A date is made from a time stamp: the seconds from 1970 to the start of the month, as a double,
and the drawn seconds added to it. `stamped` is the instant that comes back. It is the one that
was meant for whole seconds (`stamped_of_whole`), that is, whenever the clock's offset has no
part of a second. Otherwise it is off by less than a millisecond (`abs_stamped_sub_le`).

So in all years but the first and the last of the calendar every second of a month has a date,
whatever the offset (`exists_drawn_of_year`), and such a clock is uniform.
-/

set_option autoImplicit false

namespace RouteDocs

open Number Binary64

namespace Moment

/-- The instant that comes back from the time stamp of a start and a number of seconds. -/
def stamped (start : Int) (seconds : Nat) : Int :=
  ofTimeStamp ((timeStamp start).add (.ofInt seconds))

/-- A date is made from the instant that comes back. -/
theorem drawn_eq {m : Moment} {start : Int} (h : m.monthStart.instant? = some start)
    (seconds : Nat) :
    m.drawn seconds
      = if 0 ≤ stamped start seconds ∧ stamped start seconds < calendarEnd then
          m.microsecondsIntoMonth (stamped start seconds - start)
        else .error .badValue := by
  rw [drawn, h]
  simp only [Bool.and_eq_true, decide_eq_true_eq]
  rfl

/-! ### Single steps -/

/-- A whole number of no more than fifty-three bits is a double. -/
theorem value_ofInt {i : Int} (h : i.natAbs < 2 ^ 53) :
    (Binary64.ofInt i).rank < infinityRank ∧ value (.ofInt i) = i :=
  value_ofRatio_of_int h Nat.one_pos (Nat.mul_one _).symm

/-- A time stamp of whole seconds is exact. -/
theorem value_timeStamp_of_whole {instant k : Int} (hk : k.natAbs < 2 ^ 53)
    (h : instant - epoch = 1000000 * k) :
    (timeStamp instant).rank < infinityRank ∧ value (timeStamp instant) = k := by
  -- The sign is read off the microseconds, and the value off the seconds.
  have hsign : decide (instant - epoch < 0) = decide (k < 0) := by
    rw [decide_eq_decide]
    omega
  rw [timeStamp, hsign]
  exact value_ofRatio_of_int hk (by decide) (by rw [h, Int.natAbs_mul, Nat.mul_comm]; rfl)

/-- A time stamp is the nearest double. -/
theorem abs_value_timeStamp_sub_le {instant : Int} {x : ℚ}
    (hx : x = (instant - epoch : Int) / 1000000) (hbound : |x| < 2 ^ 100) :
    (timeStamp instant).rank < infinityRank ∧
      |value (timeStamp instant) - x| ≤ |x| / 2 ^ 53 + 1 / 2 ^ 100 := by
  have hquot : ((instant - epoch).natAbs : ℚ) / (1000000 : Nat) = |x| := by
    rw [hx, abs_div, Nat.cast_natAbs, Int.cast_abs]
    norm_num
  have hsigned : Binary64.signed (instant - epoch < 0)
      (((instant - epoch).natAbs : ℚ) / (1000000 : Nat)) = x := by
    rw [hx, ← signed_natAbs (instant - epoch), Binary64.signed, Binary64.signed]
    split
    · push_cast
      ring
    · push_cast
      ring
  have hnear := abs_value_ofRatio_sub_le (instant - epoch < 0) (instant - epoch).natAbs
    (show 0 < 1000000 by decide) (hquot ▸ hbound)
  rw [hsigned, hquot] at hnear
  exact hnear

/-- The size of a double is its magnitude. -/
theorem abs_value (x : Binary64) : |value x| = magnitude x.rank := by
  rw [value, abs_signed, ← ratio_eq, abs_of_nonneg (by positivity)]

/-- The part of a second, taken to microseconds, is off by a small part of one. -/
theorem abs_magnitude_fraction_sub_le (num : Nat) {den : Nat} (hden : 0 < den) :
    |magnitude ((ofRatio false (num % den) den).mul (.ofInt 1000000)).rank
      - 1000000 * ((num % den : Nat) / den)| ≤ 1 / 64 := by
  obtain ⟨part, hpart⟩ : ∃ x : ℚ, ((num % den : Nat) : ℚ) / den = x := ⟨_, rfl⟩
  have hden' : (0 : ℚ) < den := by exact_mod_cast hden
  have hnonneg : 0 ≤ part := by
    rw [← hpart]
    positivity
  have hone : part ≤ 1 := by
    rw [← hpart, div_le_one hden']
    exact_mod_cast (Nat.mod_lt num hden).le
  have hbound : ((num % den : Nat) : ℚ) / den < 2 ^ 100 := by
    rw [hpart]
    exact lt_of_le_of_lt hone (by norm_num)
  obtain ⟨hfinite, hnear⟩ := abs_value_ofRatio_sub_le false (num % den) hden hbound
  obtain ⟨hmillion, hvalue⟩ := value_ofInt (i := 1000000) (by decide)
  rw [hpart] at hnear ⊢
  generalize ofRatio false (num % den) den = x at hfinite hnear ⊢
  rw [Binary64.signed, if_neg (by decide), abs_le] at hnear
  -- The part may be rounded up to one, so all that is known of it is that it is small.
  have hx : 0 ≤ value x + 1 ∧ value x ≤ 2 := by
    constructor <;> linarith [hnear.1, hnear.2]
  have hprod : |value x * value (.ofInt 1000000)| ≤ 2000000 := by
    rw [hvalue, abs_le]
    push_cast
    constructor <;> linarith [hx.1, hx.2]
  obtain ⟨-, hmul⟩ := abs_value_mul_sub_le hfinite hmillion
    (lt_of_le_of_lt hprod (by norm_num))
  -- Two roundings: the part itself, and its product with a million.
  have hclose : |value (x.mul (.ofInt 1000000)) - 1000000 * part| ≤ 1 / 64 := by
    have htiny : |value (x.mul (.ofInt 1000000)) - value x * value (.ofInt 1000000)| ≤ 1 / 128 :=
      hmul.trans (by linarith)
    rw [hvalue, abs_le] at htiny
    push_cast at htiny
    rw [abs_le]
    constructor <;> linarith [htiny.1, htiny.2, hnear.1, hnear.2]
  have hpos : |1000000 * part| = 1000000 * part := abs_of_nonneg (by positivity)
  calc |magnitude (x.mul (.ofInt 1000000)).rank - 1000000 * part|
      = |(|value (x.mul (.ofInt 1000000))| - |1000000 * part|)| := by rw [abs_value, hpos]
    _ ≤ |value (x.mul (.ofInt 1000000)) - 1000000 * part| := abs_abs_sub_abs_le _ _
    _ ≤ 1 / 64 := hclose

/-- What comes back from a time stamp is off by less than a microsecond. -/
theorem abs_ofTimeStamp_sub_le (t : Binary64) :
    |(ofTimeStamp t : ℚ) - (epoch + 1000000 * value t)| ≤ 33 / 64 := by
  have hden := ratio_pos t.rank
  have hden' : ((ratio t.rank).2 : ℚ) ≠ 0 := by exact_mod_cast hden.ne'
  have hpart := abs_magnitude_fraction_sub_le (ratio t.rank).1 hden
  obtain ⟨f, hf⟩ : ∃ f, (ofRatio false ((ratio t.rank).1 % (ratio t.rank).2) (ratio t.rank).2).mul
      (.ofInt 1000000) = f := ⟨_, rfl⟩
  have hround := abs_roundDiv_sub_le (ratio f.rank).1 (ratio_pos f.rank)
  rw [ratio_eq] at hround
  rw [hf] at hpart
  obtain ⟨micros, hmicros⟩ : ∃ n : Nat, 1000000 * ((ratio t.rank).1 / (ratio t.rank).2)
      + roundDiv (ratio f.rank).1 (ratio f.rank).2 = n := ⟨_, rfl⟩
  -- The whole seconds are exact.
  have hsplit : magnitude t.rank = ((ratio t.rank).1 / (ratio t.rank).2 : Nat)
      + ((ratio t.rank).1 % (ratio t.rank).2 : Nat) / (ratio t.rank).2 := by
    have hdiv : ((ratio t.rank).2 * ((ratio t.rank).1 / (ratio t.rank).2 : Nat)
        + ((ratio t.rank).1 % (ratio t.rank).2 : Nat) : ℚ) = (ratio t.rank).1 := by
      exact_mod_cast Nat.div_add_mod (ratio t.rank).1 (ratio t.rank).2
    rw [← ratio_eq, div_eq_iff hden', add_mul, div_mul_cancel₀ _ hden', ← hdiv]
    ring
  have hnear : |(micros : ℚ) - 1000000 * magnitude t.rank| ≤ 33 / 64 := by
    rw [← hmicros, hsplit]
    push_cast
    rw [abs_le] at hpart hround ⊢
    constructor <;> linarith [hpart.1, hpart.2, hround.1, hround.2]
  -- Seconds before 1970 have their sign put in front at the end.
  have hstamp : (ofTimeStamp t : ℚ) = epoch + Binary64.signed t.negative micros := by
    rw [ofTimeStamp]
    simp only [hf, hmicros]
    rw [Binary64.signed]
    split <;> push_cast <;> rfl
  rw [hstamp, value, add_sub_add_left_eq_sub]
  have hsigned : 1000000 * Binary64.signed t.negative (magnitude t.rank)
      = Binary64.signed t.negative (1000000 * magnitude t.rank) := by
    cases t.negative <;> simp [Binary64.signed]
  rw [hsigned, signed_sub, abs_signed]
  exact hnear

/-- What comes back from a time stamp of whole seconds is exact. -/
theorem ofTimeStamp_of_whole {t : Binary64} {k : Int} (h : value t = k) :
    ofTimeStamp t = epoch + 1000000 * k := by
  have hnear := abs_ofTimeStamp_sub_le t
  rw [h] at hnear
  -- The error is less than one, and both sides are whole numbers.
  have hlt : |((ofTimeStamp t - (epoch + 1000000 * k) : Int) : ℚ)| < 1 := by
    push_cast
    linarith
  have hzero : |ofTimeStamp t - (epoch + 1000000 * k)| < 1 := by exact_mod_cast hlt
  rw [Int.abs_lt_one_iff] at hzero
  omega

/-! ### Seconds after the start of a month -/

/-- For a start at a whole second, what comes back is what was meant. -/
theorem stamped_of_whole {start k : Int} (h : start - epoch = 1000000 * k)
    (hk : k.natAbs < 2 ^ 52) {seconds : Nat} (hseconds : seconds < 2 ^ 52) :
    stamped start seconds = start + 1000000 * seconds := by
  obtain ⟨hfinite, hstamp⟩ := value_timeStamp_of_whole (k := k) (by omega) h
  obtain ⟨hfinite', hadded⟩ := value_ofInt (i := seconds) (by omega)
  have hsum : value (timeStamp start) + value (.ofInt seconds) = (k + seconds : Int) := by
    rw [hstamp, hadded]
    push_cast
    rfl
  rw [stamped, ofTimeStamp_of_whole (value_add_of_int hfinite hfinite' (by omega) hsum).2]
  omega

/-- Microseconds are within a bound of seconds where they are within as many millions. -/
theorem abs_inSeconds_le {i b : Int} (h : |i| ≤ b * 1000000) : |(i : ℚ) / 1000000| ≤ b := by
  rw [abs_div, abs_of_pos (show (0 : ℚ) < 1000000 by norm_num), div_le_iff₀ (by norm_num),
    ← Int.cast_abs]
  exact_mod_cast h

/-- Otherwise it is as far off as the doubles on the way are apart. -/
theorem abs_stamped_sub_le_of {start : Int} {seconds : Nat} {x bound : ℚ}
    (hx : x = (start - epoch : Int) / 1000000) (hstart : |x| ≤ bound) (hend : |x + seconds| ≤ bound)
    (hseconds : seconds ≤ 10 ^ 7) (hbound : bound ≤ 2 ^ 41) :
    |((stamped start seconds - (start + 1000000 * seconds) : Int) : ℚ)|
      ≤ 33 / 64 + 1000000 * ((2 * bound + 1) / 2 ^ 53) := by
  obtain ⟨hfinite, hstamp⟩ := abs_value_timeStamp_sub_le hx (by linarith)
  obtain ⟨hfinite', hadded⟩ := value_ofInt (i := seconds) (by omega)
  -- Two roundings, of the start and of the sum.
  have hclose : |value (timeStamp start) - x| ≤ bound / 2 ^ 53 + 1 / 2 ^ 100 :=
    hstamp.trans (by linarith)
  have hsum : |value (timeStamp start) + value (.ofInt seconds)| ≤ bound + 1 / 2 := by
    rw [hadded]
    push_cast
    rw [abs_le] at hclose hend ⊢
    constructor <;> linarith [hclose.1, hclose.2, hend.1, hend.2]
  obtain ⟨-, hadd⟩ := abs_value_add_sub_le hfinite hfinite' (by linarith)
  have hadd' : |value ((timeStamp start).add (.ofInt seconds))
      - (value (timeStamp start) + value (.ofInt seconds))|
      ≤ (bound + 1 / 2) / 2 ^ 53 + 1 / 2 ^ 100 := hadd.trans (by linarith)
  have hback := abs_ofTimeStamp_sub_le ((timeStamp start).add (.ofInt seconds))
  -- In microseconds, both roundings and the way back are small.
  have hinstant : (start : ℚ) = epoch + 1000000 * x := by
    rw [hx]
    push_cast
    ring
  rw [hadded] at hadd'
  rw [abs_le] at hadd' hback hclose ⊢
  rw [stamped]
  push_cast at hadd' hback ⊢
  constructor <;>
    linarith [hclose.1, hclose.2, hadd'.1, hadd'.2, hback.1, hback.2]

/-- In all years of the calendar it is off by less than a millisecond. -/
theorem abs_stamped_sub_le {start : Int} (h : (start - epoch).natAbs ≤ 10 ^ 18) {seconds : Nat}
    (hseconds : seconds ≤ 10 ^ 7) :
    |stamped start seconds - (start + 1000000 * seconds)| < 1000 := by
  have habs : |start - epoch| ≤ 10 ^ 12 * 1000000 := by
    rw [Int.abs_eq_natAbs]
    omega
  have hstart : |((start - epoch : Int) : ℚ) / 1000000| ≤ 10 ^ 12 :=
    (abs_inSeconds_le habs).trans_eq (by norm_num)
  have hcount : (seconds : ℚ) ≤ 10 ^ 7 := by exact_mod_cast hseconds
  have hend : |((start - epoch : Int) : ℚ) / 1000000 + seconds| ≤ 2 ^ 41 :=
    (abs_add_le _ _).trans (by rw [Nat.abs_cast]; linarith)
  have hoff := abs_stamped_sub_le_of rfl (hstart.trans (by norm_num)) hend hseconds le_rfl
  have hlt : |((stamped start seconds - (start + 1000000 * seconds) : Int) : ℚ)| < 1000 := by
    linarith
  exact_mod_cast hlt

/-- Less than 2³¹ seconds from 1970 it is what was meant, to the microsecond. -/
theorem stamped_of_near {start : Int} {seconds : Nat} (hseconds : seconds ≤ 10 ^ 7)
    (hstart : |start - epoch| ≤ 2 ^ 31 * 1000000)
    (hend : |start - epoch + 1000000 * seconds| ≤ 2 ^ 31 * 1000000) :
    stamped start seconds = start + 1000000 * seconds := by
  have hstart' : |((start - epoch : Int) : ℚ) / 1000000| ≤ 2 ^ 31 :=
    (abs_inSeconds_le hstart).trans_eq (by norm_num)
  have hend' : |((start - epoch : Int) : ℚ) / 1000000 + seconds| ≤ 2 ^ 31 := by
    have hsum : ((start - epoch : Int) : ℚ) / 1000000 + seconds
        = ((start - epoch + 1000000 * seconds : Int) : ℚ) / 1000000 := by
      push_cast
      ring
    rw [hsum]
    exact (abs_inSeconds_le hend).trans_eq (by norm_num)
  have hoff := abs_stamped_sub_le_of rfl hstart' hend' hseconds (by norm_num)
  have hlt : |((stamped start seconds - (start + 1000000 * seconds) : Int) : ℚ)| < 1 := by
    linarith
  have hzero : |stamped start seconds - (start + 1000000 * seconds)| < 1 := by exact_mod_cast hlt
  rw [Int.abs_lt_one_iff] at hzero
  omega

/-! ### Clocks -/

/-- From the second year of the calendar on there is a day before every day. -/
theorem exists_previous? {d : Date} (h : 2 ≤ d.year) : ∃ e, d.previous? = some e := by
  rw [Date.previous?]
  split
  · exact ⟨_, rfl⟩
  · split
    · exact ⟨_, rfl⟩
    · exact ⟨_, if_pos (by omega)⟩

/-- The start of a month is midnight of its first day, by the clock's offset. -/
theorem start_eq {now : Moment} {o : Offset} (ho : now.offset = some o) :
    now.monthStart.instant?
      = some (86400000000 * now.monthStart.date.dayNumber - o.microseconds) := by
  have hoffset : now.monthStart.offset = some o := ho
  have hmidnight : now.monthStart.secondOfDay = 0 := rfl
  have hwhole : now.monthStart.microsecond = 0 := rfl
  rw [instant?, hoffset, Option.map_some, hmidnight, hwhole]
  congr 1
  omega

/-- A month has 31 days at most, starts in its year, and has ended before the next one. -/
theorem month_bounds {now : Moment} (hvalid : now.isValid = true) :
    now.secondsIntoMonth < 31 * 86400 ∧
      (∀ year, 1 ≤ year → year ≤ now.date.year →
        Date.daysBeforeYear year ≤ now.monthStart.date.dayNumber) ∧
      ∀ year, now.date.year < year → 86400 * now.monthStart.date.dayNumber + now.secondsIntoMonth
        < 86400 * Date.daysBeforeYear year := by
  obtain ⟨hdate, hhour, hminute, hsecond, -, hoffset⟩ := now.isValid_iff.mp hvalid
  obtain ⟨hyear, hmonth, hday⟩ := now.date.isValid_iff.mp hdate
  have hdays := Date.daysIn_le now.date.year now.date.month
  have htime : now.secondOfDay < 86400 := by
    rw [secondOfDay]
    omega
  refine ⟨?_, fun year hfirst hle => ?_, fun year hlt => ?_⟩
  · rw [secondsIntoMonth]
    omega
  · calc Date.daysBeforeYear year ≤ Date.daysBeforeYear now.date.year :=
          Date.daysBeforeYear_mono hfirst hle
      _ ≤ now.monthStart.date.dayNumber := by
        rw [Date.dayNumber_eq]
        exact Nat.le_add_right _ _
  -- The clock's day is before the first day of every later year.
  · have hnext : now.date.dayNumber < Date.dayNumber ⟨year, 1, 1⟩ :=
      Date.dayNumber_lt_of_year_lt hdate hlt
    have hfirst : Date.dayNumber ⟨year, 1, 1⟩ = Date.daysBeforeYear year := rfl
    have hnumber : now.date.dayNumber = now.monthStart.date.dayNumber + (now.date.day - 1) := by
      simp only [monthStart, Date.dayNumber]
      omega
    rw [secondsIntoMonth]
    omega

/-- The start of 1970 is so many days into the calendar. -/
theorem epoch_eq : epoch = 86400000000 * 719162 := by decide

/-- And its end so many. -/
theorem calendarEnd_eq : calendarEnd = 86400000000 * 3652059 := by decide

/-- The calendar is less than 10¹⁸ microseconds to both sides of 1970, at whatever offset. -/
theorem natAbs_start_sub_le {now : Moment} (hvalid : now.isValid = true) {o : Offset}
    (ho : now.offset = some o) :
    (86400000000 * (now.monthStart.date.dayNumber : Int) - o.microseconds - epoch).natAbs
      ≤ 10 ^ 18 := by
  obtain ⟨hdate, -, -, -, -, hoffset⟩ := now.isValid_iff.mp hvalid
  have hlast := (month_bounds hvalid).2.2 10000
    (Nat.lt_succ_of_le (now.date.isValid_iff.mp hdate).1.2)
  have hyears : Date.daysBeforeYear 10000 = 3652059 := by decide
  have hsmall : o.microseconds.natAbs < 86400000000 := hoffset o ho
  have hepoch := epoch_eq
  omega

/-- Between the first year of the calendar and the last, every second of a month has a date. -/
theorem exists_drawn_of_year {now : Moment} (hvalid : now.isValid = true)
    (hfirst : 2 ≤ now.date.year) (hlast : now.date.year ≤ 9998) {n : Nat}
    (hn : n ≤ now.secondsIntoMonth) : ∃ m, now.drawn n = .ok m := by
  obtain ⟨hseconds, hearly, hlate⟩ := month_bounds hvalid
  have hearly := hearly 2 (by omega) hfirst
  have hlate := hlate 9999 (by omega)
  have hyears : Date.daysBeforeYear 2 = 365 ∧ Date.daysBeforeYear 9999 = 3651694 := by decide
  -- Without an offset nothing goes through a time stamp.
  cases ho : now.offset with
  | none =>
      refine ⟨now.intoMonth n, ?_⟩
      have hfloat : now.monthStart.instant? = none := congrArg (Option.map _) ho
      rw [drawn, hfloat]
  | some o =>
      have hsmall : o.microseconds.natAbs < 86400000000 := (now.isValid_iff.mp hvalid).2.2.2.2.2 o ho
      have hstart := start_eq ho
      have hclose := natAbs_start_sub_le hvalid ho
      obtain ⟨start, hvalue⟩ : ∃ start : Int,
          86400000000 * now.monthStart.date.dayNumber - o.microseconds = start := ⟨_, rfl⟩
      rw [hvalue] at hstart hclose
      have hend := calendarEnd_eq
      have hback := abs_stamped_sub_le hclose (show n ≤ 10 ^ 7 by omega)
      rw [abs_lt] at hback
      -- A millisecond does not lead out of the calendar.
      rw [drawn_eq hstart, if_pos (by omega), microsecondsIntoMonth]
      split
      · exact ⟨_, rfl⟩
      · -- Rounding may lead to the day before the month.
        obtain ⟨day, hday⟩ := exists_previous? (d := now.monthStart.date) hfirst
        rw [hday]
        exact ⟨_, rfl⟩

/-- So in all years but the first and the last a draw does not decide whether there is a date. -/
theorem isUniform_of_year {now : Moment} (hvalid : now.isValid = true)
    (hfirst : 2 ≤ now.date.year) (hlast : now.date.year ≤ 9998) : now.IsUniform := by
  intro m n hm hn
  obtain ⟨a, ha⟩ := exists_drawn_of_year hvalid hfirst hlast hm
  obtain ⟨b, hb⟩ := exists_drawn_of_year hvalid hfirst hlast hn
  rw [ha, hb]
  exact .ok trivial

/-! ### Exact time stamps -/

/-- The time stamp leads to the second that was meant: so many seconds after the start of the
clock's month. -/
def IsExact (now : Moment) (seconds : Nat) : Prop :=
  ∃ start, now.monthStart.instant? = some start ∧
    stamped start seconds = start + 1000000 * seconds

/-- Time stamps are exact for clocks with an offset of whole seconds. -/
theorem isExact_of_whole {now : Moment} (hvalid : now.isValid = true) {o : Offset}
    (ho : now.offset = some o) {k : Int} (hwhole : o.microseconds = 1000000 * k) {n : Nat}
    (hn : n ≤ now.secondsIntoMonth) : now.IsExact n := by
  have hseconds := (month_bounds hvalid).1
  have hclose := natAbs_start_sub_le hvalid ho
  have hepoch := epoch_eq
  refine ⟨_, start_eq ho, ?_⟩
  -- The month starts at a whole second after or before 1970.
  refine stamped_of_whole
    (k := 86400 * (now.monthStart.date.dayNumber - 719162) - k) ?_ ?_ (by omega)
  · rw [hwhole, hepoch]
    ring
  · omega

/-- And for clocks of the years 1902 to 2037, whatever the offset. -/
theorem isExact_of_year {now : Moment} (hvalid : now.isValid = true)
    (hoffset : now.offset.isSome = true) (hfirst : 1902 ≤ now.date.year)
    (hlast : now.date.year ≤ 2037) {n : Nat} (hn : n ≤ now.secondsIntoMonth) : now.IsExact n := by
  obtain ⟨o, ho⟩ := Option.isSome_iff_exists.mp hoffset
  obtain ⟨hseconds, hearly, hlate⟩ := month_bounds hvalid
  have hearly := hearly 1902 (by omega) hfirst
  have hlate := hlate 2038 (by omega)
  have hyears : Date.daysBeforeYear 1902 = 694325 ∧ Date.daysBeforeYear 2038 = 743999 := by decide
  have hsmall : o.microseconds.natAbs < 86400000000 := (now.isValid_iff.mp hvalid).2.2.2.2.2 o ho
  have hepoch := epoch_eq
  refine ⟨_, start_eq ho, stamped_of_near (by omega) ?_ ?_⟩
  · rw [abs_le]
    omega
  · rw [abs_le]
    omega

end Moment

end RouteDocs
