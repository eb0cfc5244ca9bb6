import RouteDocs.Proofs.FloatText
import RouteDocs.Proofs.TimeStamps

/-!
# `RouteDocs.Proofs.MonthDates`: synthesised dates

An example of type `date` is a moment between the start of the clock's month and the clock, a
drawn number of whole seconds after the start. It is shown in ISO 8601 form. `Spells` is that form
for a row of numerals, and `Denotes` for a moment; a text denotes one moment at most
(`Denotes.unique`).

What the moment has to be is said by instants, in `IsMonthDate`, without a word on how a count of
seconds becomes a date. What is made is said by instants too, in `ShowsStamp`: the moment at the
instant that comes back from a time stamp. `synthesize_date` compares the two. They are the same
where the time stamp is exact, as it is for every clock whose offset has no part of a second. And
near the end of the calendar an offset can take a moment past the last universal time. Such a
moment cannot be made, and a date that was drawn there is a fault.
-/

set_option autoImplicit false

namespace RouteDocs

open Text Number Synthesis

/-! ### Moments as text -/

/-- A numeral of a text. -/
structure Numeral where
  /-- What stands in front of it. -/
  mark : Text
  /-- How many digits it has. -/
  width : Nat
  /-- What it stands for. -/
  value : Nat

/-- The text is made of the numerals, each behind its mark. -/
inductive Spells : List Numeral → Text → Prop
  | nil : Spells [] []
  | cons {x : Numeral} {xs : List Numeral} {digits rest : Text} (hdigits : AreDigits digits)
      (hwidth : digits.length = x.width) (hvalue : ofDecimals (digitValues digits) = x.value)
      (hrest : Spells xs rest) : Spells (x :: xs) (x.mark ++ (digits ++ rest))

/-- Two numerals at one place of a text: marks of one length, and with one mark the same
width. -/
def Numeral.Comparable (x y : Numeral) : Prop :=
  x.mark.length = y.mark.length ∧ (x.mark = y.mark → x.width = y.width)

/-- That two numerals can be told apart by their width is said of both alike. -/
theorem Numeral.Comparable.symm {x y : Numeral} (h : x.Comparable y) : y.Comparable x :=
  ⟨h.1.symm, fun hmark => (h.2 hmark.symm).symm⟩

/-- Two rows that start with the same numerals in one text go on in one text. -/
theorem Spells.head_eq {x y : Numeral} {xs ys : List Numeral} {text : Text}
    (hx : Spells (x :: xs) text) (hy : Spells (y :: ys) text) (hxy : x.Comparable y) :
    x = y ∧ ∃ rest, Spells xs rest ∧ Spells ys rest := by
  generalize htext : text = text' at hy
  cases hx with
  | @cons _ _ digits rest _ hdigits hvalue hrest =>
    cases hy with
    | @cons _ _ digits' rest' _ hdigits' hvalue' hrest' =>
      -- Marks and digits have their lengths, so the text can be cut in one way only.
      obtain ⟨hmark, htext⟩ := List.append_inj htext hxy.1
      have hwidth := hxy.2 hmark
      obtain ⟨rfl, rfl⟩ := List.append_inj htext (hdigits.trans (hwidth.trans hdigits'.symm))
      refine ⟨?_, rest, hrest, hrest'⟩
      cases x
      cases y
      exact (Numeral.mk.injEq ..).mpr ⟨hmark, hwidth, hvalue.symm.trans hvalue'⟩

/-- A row of numerals with marks has a text. -/
theorem Spells.ne_nil {x : Numeral} {xs : List Numeral} {text : Text} (h : Spells (x :: xs) text)
    (hmark : x.mark ≠ []) : text ≠ [] := by
  cases h
  simp [hmark]

/-- A text is made of one row of numerals, if all marks are one character and tell the width. -/
theorem Spells.unique {xs ys : List Numeral} {text : Text} (hx : Spells xs text)
    (hy : Spells ys text) (hmarks : ∀ x ∈ xs ++ ys, x.mark.length = 1)
    (hall : ∀ x ∈ xs, ∀ y ∈ ys, x.mark = y.mark → x.width = y.width) : xs = ys := by
  -- Along both rows at once. Neither can end before the other, as a numeral has a text.
  induction xs generalizing ys text with
  | nil =>
      cases hx
      cases ys with
      | nil => rfl
      | cons y ys =>
          have hmark := hmarks y (by simp)
          exact absurd rfl (hy.ne_nil (by rintro h; rw [h] at hmark; cases hmark))
  | cons x xs ih =>
      cases ys with
      | nil =>
          cases hy
          have hmark := hmarks x (by simp)
          exact absurd rfl (hx.ne_nil (by rintro h; rw [h] at hmark; cases hmark))
      | cons y ys =>
          have hlength : x.mark.length = y.mark.length :=
            (hmarks x (by simp)).trans (hmarks y (by simp)).symm
          obtain ⟨rfl, rest, hrest, hrest'⟩ :=
            hx.head_eq hy ⟨hlength, hall x (by simp) y (by simp)⟩
          rw [ih hrest hrest' (fun z hz => hmarks z (by simp at hz ⊢; tauto))
            fun a ha b hb => hall a (List.mem_cons_of_mem _ ha) b (List.mem_cons_of_mem _ hb)]

/-- Numbers with zeros in front are numerals of the wanted width. -/
theorem spells_padded {xs : List Numeral} (h : ∀ x ∈ xs, 0 < x.width ∧ x.value < 10 ^ x.width) :
    Spells xs (xs.flatMap fun x => x.mark ++ padded x.width x.value) := by
  induction xs with
  | nil => exact .nil
  | cons x xs ih =>
      obtain ⟨hpos, hlt⟩ := h x List.mem_cons_self
      have hlength : (natText x.value).length ≤ x.width := (length_natText_le_iff hpos).mpr hlt
      rw [List.flatMap_cons, List.append_assoc]
      refine .cons (areDigits_padded _ _) ?_ (ofDecimals_padded _ _)
        (ih fun y hy => h y (List.mem_cons_of_mem x hy))
      rw [padded, List.length_append, zeros, List.length_replicate]
      omega

/-- The sign of an offset. -/
def Offset.sign (o : Offset) : Text := if o.microseconds < 0 then "-" else "+"

/-- The sign of an offset is one character. -/
theorem Offset.length_sign (o : Offset) : o.sign.length = 1 := by
  rw [sign]
  split <;> rfl

/-- It is not the point of a fraction. -/
theorem Offset.sign_ne_dot (o : Offset) : o.sign ≠ "." := by
  rw [sign]
  split <;> decide

/-- Two offsets have one sign if both are behind universal time or neither is. -/
theorem Offset.sign_eq_iff {o o' : Offset} :
    o.sign = o'.sign ↔ (o.microseconds < 0 ↔ o'.microseconds < 0) := by
  have hplus : ("+" : Text) ≠ "-" := by decide
  by_cases h : o.microseconds < 0
  · by_cases h' : o'.microseconds < 0 <;> simp [sign, h, h', hplus.symm]
  · by_cases h' : o'.microseconds < 0 <;> simp [sign, h, h', hplus]

/-- The numeral of a part of a second, if there is one. -/
def fractionNumerals (micros : Nat) : List Numeral :=
  if micros = 0 then [] else [⟨".", 6, micros⟩]

/-- A part of a second is told by its mark from what comes behind it. -/
theorem fractionNumerals_append_inj {a b : Nat} {xs ys : List Numeral}
    (hxs : ∀ x ∈ xs.head?, x.mark ≠ ".") (hys : ∀ y ∈ ys.head?, y.mark ≠ ".")
    (h : fractionNumerals a ++ xs = fractionNumerals b ++ ys) : a = b ∧ xs = ys := by
  unfold fractionNumerals at h
  -- If one text has a fraction and the other has none, a point stands where none can.
  by_cases ha : a = 0
  · by_cases hb : b = 0
    · rw [if_pos ha, if_pos hb] at h
      exact ⟨ha.trans hb.symm, h⟩
    · rw [if_pos ha, if_neg hb] at h
      exact absurd rfl (hxs ⟨".", 6, b⟩ (congrArg List.head? h))
  · by_cases hb : b = 0
    · rw [if_neg ha, if_pos hb] at h
      exact absurd rfl (hys ⟨".", 6, a⟩ (congrArg List.head? h.symm))
    · simpa [ha, hb] using h

/-- A part of a second is written as its numeral. -/
theorem text_fraction (micros : Nat) : (if micros = 0 then [] else "." ++ padded 6 micros : Text)
    = (fractionNumerals micros).flatMap fun x => x.mark ++ padded x.width x.value := by
  unfold fractionNumerals
  split
  · rfl
  · exact (List.append_nil _).symm

/-- Microseconds are known from their digits. -/
theorem fractionNumerals_inj {a b : Nat} (h : fractionNumerals a = fractionNumerals b) : a = b :=
  (fractionNumerals_append_inj (by simp) (by simp) (congrArg (· ++ []) h)).1

/-- The numerals of an offset: hours and minutes, seconds if there are any parts below minutes,
and parts of a second. -/
def Offset.numerals (o : Offset) : List Numeral :=
  let micros := o.microseconds.natAbs
  ⟨o.sign, 2, micros / 3600000000⟩ :: ⟨":", 2, micros / 60000000 % 60⟩ ::
    if micros % 60000000 = 0 then []
    else ⟨":", 2, micros / 1000000 % 60⟩ :: fractionNumerals (micros % 1000000)

/-- An offset is told by its numerals: the sign says whether it is negative, the others how large
it is. -/
theorem Offset.numerals_inj {o o' : Offset} (h : o.numerals = o'.numerals) : o = o' := by
  obtain ⟨micros⟩ := o
  obtain ⟨micros'⟩ := o'
  simp only [numerals, List.cons.injEq, Numeral.mk.injEq, true_and] at h
  obtain ⟨⟨hsigns, hhours⟩, hminutes, hsmall⟩ := h
  have hnegative : micros < 0 ↔ micros' < 0 := sign_eq_iff.mp hsigns
  -- Parts of a minute are written only if there are any, so both offsets have some or neither
  -- has.
  have hparts : micros.natAbs % 60000000 = micros'.natAbs % 60000000 := by
    by_cases hzero : micros.natAbs % 60000000 = 0
    · by_cases hzero' : micros'.natAbs % 60000000 = 0
      · exact hzero.trans hzero'.symm
      · rw [if_pos hzero, if_neg hzero'] at hsmall
        cases hsmall
    · by_cases hzero' : micros'.natAbs % 60000000 = 0
      · rw [if_neg hzero, if_pos hzero'] at hsmall
        cases hsmall
      · rw [if_neg hzero, if_neg hzero'] at hsmall
        simp only [List.cons.injEq, Numeral.mk.injEq, true_and] at hsmall
        obtain ⟨hseconds, hfraction⟩ := hsmall
        have hmicros := fractionNumerals_inj hfraction
        have hminute (a : Nat) : a % 60000000 = a % 1000000 + 1000000 * (a / 1000000 % 60) :=
          Nat.mod_mul (x := a) (a := 1000000) (b := 60)
        rw [hminute, hminute, hseconds, hmicros]
  rw [mk.injEq]
  omega

namespace Moment

/-- The numerals of a moment in ISO 8601 form behind the year, with its offset. -/
def isoNumerals (m : Moment) (o : Offset) : List Numeral :=
  ⟨"-", 2, m.date.month⟩ :: ⟨"-", 2, m.date.day⟩ :: ⟨"T", 2, m.hour⟩ :: ⟨":", 2, m.minute⟩ ::
    ⟨":", 2, m.second⟩ :: (fractionNumerals m.microsecond ++ o.numerals)

/-- The text is the moment in ISO 8601 form: year, month and day, the time of day, and the
offset. -/
def Denotes (text : Text) (m : Moment) : Prop :=
  ∃ o, m.offset = some o ∧ Spells (⟨[], 4, m.date.year⟩ :: m.isoNumerals o) text

/-- What holds of all numerals behind the year. -/
theorem forall_mem_isoNumerals {m : Moment} {o : Offset} {P : Numeral → Prop}
    (hdate : P ⟨"-", 2, m.date.month⟩ ∧ P ⟨"-", 2, m.date.day⟩)
    (htime : P ⟨"T", 2, m.hour⟩ ∧ P ⟨":", 2, m.minute⟩ ∧ P ⟨":", 2, m.second⟩ ∧
      P ⟨".", 6, m.microsecond⟩)
    (hoffset : P ⟨o.sign, 2, o.microseconds.natAbs / 3600000000⟩ ∧
      P ⟨":", 2, o.microseconds.natAbs / 60000000 % 60⟩ ∧
      P ⟨":", 2, o.microseconds.natAbs / 1000000 % 60⟩ ∧
      P ⟨".", 6, o.microseconds.natAbs % 1000000⟩) : ∀ x ∈ m.isoNumerals o, P x := by
  have hfraction {micros : Nat} (h : P ⟨".", 6, micros⟩) : ∀ x ∈ fractionNumerals micros, P x := by
    unfold fractionNumerals
    split
    · simp
    · simpa using h
  have hsmall : ∀ x ∈ o.numerals, P x := by
    simp only [Offset.numerals, List.forall_mem_cons]
    refine ⟨hoffset.1, hoffset.2.1, ?_⟩
    split
    · simp
    · exact List.forall_mem_cons.mpr ⟨hoffset.2.2.1, hfraction hoffset.2.2.2⟩
  simp only [isoNumerals, List.forall_mem_cons, List.forall_mem_append]
  exact ⟨hdate.1, hdate.2, htime.1, htime.2.1, htime.2.2.1, hfraction htime.2.2.2, hsmall⟩

/-- Behind the year every mark is one character, and it tells how many digits come after it. -/
theorem mark_isoNumerals (m : Moment) (o : Offset) :
    ∀ x ∈ m.isoNumerals o, x.mark.length = 1 ∧ x.width = if x.mark = "." then 6 else 2 :=
  forall_mem_isoNumerals ⟨⟨rfl, rfl⟩, ⟨rfl, rfl⟩⟩ ⟨⟨rfl, rfl⟩, ⟨rfl, rfl⟩, ⟨rfl, rfl⟩, ⟨rfl, rfl⟩⟩
    ⟨⟨o.length_sign, (if_neg o.sign_ne_dot).symm⟩, ⟨rfl, rfl⟩, ⟨rfl, rfl⟩, ⟨rfl, rfl⟩⟩

/-- A text denotes one moment at most. -/
theorem Denotes.unique {text : Text} {m n : Moment} (hm : Denotes text m)
    (hn : Denotes text n) : m = n := by
  obtain ⟨o, ho, hspells⟩ := hm
  obtain ⟨o', ho', hspells'⟩ := hn
  obtain ⟨hyear, rest, hrest, hrest'⟩ := hspells.head_eq hspells' ⟨rfl, fun _ => rfl⟩
  have hnumerals : m.isoNumerals o = n.isoNumerals o' := by
    refine hrest.unique hrest' (fun x hx => ?_) fun x hx y hy hxy => ?_
    · rcases List.mem_append.mp hx with h | h
      · exact (mark_isoNumerals m o x h).1
      · exact (mark_isoNumerals n o' x h).1
    · rw [(mark_isoNumerals m o x hx).2, (mark_isoNumerals n o' y hy).2, hxy]
  have hhead (o : Offset) : ∀ x ∈ o.numerals.head?, x.mark ≠ "." := by
    rintro x ⟨⟩
    exact o.sign_ne_dot
  simp only [isoNumerals, List.cons.injEq, Numeral.mk.injEq, true_and] at hnumerals hyear
  obtain ⟨hmonth, hday, hhour, hminute, hsecond, hsmall⟩ := hnumerals
  obtain ⟨hmicro, hoffset⟩ := fractionNumerals_append_inj (hhead o) (hhead o') hsmall
  obtain ⟨⟨year, month, day⟩, hour, minute, second, micro, offset⟩ := m
  obtain ⟨⟨year', month', day'⟩, hour', minute', second', micro', offset'⟩ := n
  obtain rfl : offset = some o := ho
  obtain rfl : offset' = some o' := ho'
  simp only at hyear hmonth hday hhour hminute hsecond hmicro
  rw [hyear, hmonth, hday, hhour, hminute, hsecond, hmicro, Offset.numerals_inj hoffset]

/-- An offset is written as its numerals. -/
theorem text_offset (o : Offset) :
    o.text = o.numerals.flatMap fun x => x.mark ++ padded x.width x.value := by
  -- Hours and minutes are taken from the seconds in the text, and from the microseconds in the
  -- numerals.
  have hhours (n : Nat) : n / 1000000 / 3600 = n / 3600000000 := Nat.div_div_eq_div_mul n _ _
  have hminutes (n : Nat) : n / 1000000 / 60 = n / 60000000 := Nat.div_div_eq_div_mul n _ _
  have hsign : (if o.microseconds < 0 then "-" else "+" : Text) = o.sign := rfl
  simp only [Offset.text, Offset.numerals, List.flatMap_cons, text_fraction, hhours, hminutes, hsign]
  by_cases hwhole : o.microseconds.natAbs % 60000000 = 0
  · simp only [hwhole, if_true, List.flatMap_nil, List.append_assoc]
  · simp only [hwhole, if_false, List.flatMap_cons, List.append_assoc]

/-- A moment with an offset is written in ISO 8601 form. -/
theorem denotes_text {m : Moment} (hvalid : m.isValid = true) (hoffset : m.offset.isSome = true) :
    Denotes (m.text 'T') m := by
  obtain ⟨o, ho⟩ := Option.isSome_iff_exists.mp hoffset
  obtain ⟨hdate, hhour, hminute, hsecond, hmicro, hoffsets⟩ := m.isValid_iff.mp hvalid
  obtain ⟨hyear, hmonth, hday⟩ := m.date.isValid_iff.mp hdate
  have hdays := Date.daysIn_le m.date.year m.date.month
  have hsmall : o.microseconds.natAbs < 86400000000 := hoffsets o ho
  have htext : m.text 'T' = (⟨[], 4, m.date.year⟩ :: m.isoNumerals o).flatMap
      fun x => x.mark ++ padded x.width x.value := by
    simp only [text, Date.text, ho, Option.map_some, Option.getD_some, text_fraction, text_offset,
      isoNumerals, List.flatMap_cons, List.flatMap_append, List.append_assoc, List.nil_append]
    rfl
  refine ⟨o, ho, ?_⟩
  rw [htext]
  refine spells_padded (List.forall_mem_cons.mpr ⟨?_, ?_⟩)
  · simp only
    omega
  · exact forall_mem_isoNumerals (by simp only; omega) (by simp only; omega) (by simp only; omega)

/-! ### The moments of a month -/

/-- A second of the month gives a date of the calendar: the month is that of a valid moment, and
the day one that it has had. -/
theorem isValid_intoMonth {now : Moment} (hvalid : now.isValid = true) {seconds : Nat}
    (hseconds : seconds ≤ now.secondsIntoMonth) : (now.intoMonth seconds).isValid = true := by
  obtain ⟨hdate, hhour, hminute, hsecond, -, hoffset⟩ := now.isValid_iff.mp hvalid
  obtain ⟨hyear, hmonth, hday⟩ := now.date.isValid_iff.mp hdate
  -- The drawn second is no later than the clock, so its day is not either.
  have hday' : seconds / 86400 ≤ now.date.day - 1 := by
    simp only [secondsIntoMonth, secondOfDay] at hseconds
    omega
  refine (isValid_iff _).mpr ⟨(Date.isValid_iff _).mpr ⟨hyear, hmonth, ?_⟩, ?_⟩
  · simp only [intoMonth]
    omega
  · simp only [intoMonth]
    exact ⟨by omega, by omega, by omega, Nat.succ_pos _, hoffset⟩

/-- The day of a moment of the month is counted from its first day. -/
theorem dayNumber_intoMonth (now : Moment) (seconds : Nat) :
    (now.intoMonth seconds).date.dayNumber = now.monthStart.date.dayNumber + seconds / 86400 := by
  simp only [intoMonth, monthStart, Date.dayNumber]
  omega

/-- The second of the day is what the drawn number leaves beyond whole days. -/
theorem secondOfDay_intoMonth (now : Moment) (seconds : Nat) :
    (now.intoMonth seconds).secondOfDay = seconds % 86400 := by
  simp only [secondOfDay, intoMonth]
  omega

/-- Microseconds into the month are microseconds after its start. There is one moment there, by
the clock's offset. -/
theorem microsecondsIntoMonth_spec {now : Moment} (hvalid : now.isValid = true) {start : Int}
    (hstart : now.monthStart.instant? = some start) {micros : Int} (hlow : -86400000000 ≤ micros)
    (hhigh : micros < 1000000 * (now.secondsIntoMonth + 1)) {m : Moment}
    (h : now.microsecondsIntoMonth micros = .ok m) :
    m.isValid = true ∧ m.offset = now.offset ∧ m.instant? = some (start + micros) := by
  obtain ⟨hdate, -, -, -, -, hoffset⟩ := now.isValid_iff.mp hvalid
  obtain ⟨o, ho⟩ : ∃ o, now.offset = some o := by
    cases ho : now.offset with
    | some o => exact ⟨o, rfl⟩
    | none => rw [instant?, show now.monthStart.offset = none from ho] at hstart; cases hstart
  rw [start_eq ho, Option.some.injEq] at hstart
  rw [microsecondsIntoMonth] at h
  split at h
  · -- In the month.
    cases h
    have hseconds : micros.toNat / 1000000 ≤ now.secondsIntoMonth := by omega
    obtain ⟨hvalid', hhour, hminute, hsecond, -, -⟩ :=
      (isValid_iff _).mp (isValid_intoMonth hvalid hseconds)
    refine ⟨(isValid_iff _).mpr ⟨hvalid', hhour, hminute, hsecond, ?_, hoffset⟩, rfl, ?_⟩
    · exact Nat.mod_lt _ (by decide)
    have hday := dayNumber_intoMonth now (micros.toNat / 1000000)
    have htime := secondOfDay_intoMonth now (micros.toNat / 1000000)
    simp only [instant?, secondOfDay] at htime ⊢
    rw [show (now.intoMonth (micros.toNat / 1000000)).offset = some o from ho, Option.map_some,
      hday, htime]
    congr 1
    omega
  · split at h
    · cases h
    · -- On the day before.
      rename_i day hday
      cases h
      have hfirst : now.monthStart.date.isValid = true := by
        obtain ⟨hyear, hmonth, hday⟩ := now.date.isValid_iff.mp hdate
        exact (Date.isValid_iff _).mpr ⟨hyear, hmonth, Nat.le_refl 1, Nat.le_trans hday.1 hday.2⟩
      obtain ⟨hvalid', hnext⟩ := Date.next_previous? hfirst hday
      have hnumber := (Date.dayNumber_next hvalid').2
      rw [hnext] at hnumber
      refine ⟨(isValid_iff _).mpr ⟨hvalid', ?_, ?_, ?_, ?_, hoffset⟩, rfl, ?_⟩
      · simp only
        omega
      · simp only
        omega
      · simp only
        omega
      · exact Nat.mod_lt _ (by decide)
      simp only [instant?, secondOfDay, ho, Option.map_some]
      congr 1
      omega

/-- Seconds into the month are seconds after its start. -/
theorem instant?_intoMonth (now : Moment) (seconds : Nat) :
    (now.intoMonth seconds).instant?
      = now.monthStart.instant?.map fun (start : Int) => start + 1000000 * seconds := by
  have hoffset : (now.intoMonth seconds).offset = now.monthStart.offset := rfl
  have hmidnight : now.monthStart.secondOfDay = 0 := rfl
  have hwhole : (now.intoMonth seconds).microsecond = now.monthStart.microsecond := rfl
  rw [instant?, instant?, Option.map_map, hoffset, dayNumber_intoMonth, secondOfDay_intoMonth,
    hmidnight, hwhole]
  refine Option.map_congr fun o _ => ?_
  simp only [Function.comp_apply]
  omega

/-- The clock itself is that many whole seconds after the start, and a part of a second. -/
theorem instant?_eq_map_monthStart {now : Moment} (hvalid : now.isValid = true) :
    now.instant? = now.monthStart.instant?.map fun (start : Int) =>
      start + 1000000 * now.secondsIntoMonth + now.microsecond := by
  have hday := (now.date.isValid_iff.mp (now.isValid_iff.mp hvalid).1).2.2.1
  -- The days of the month so far.
  have hnumber : now.date.dayNumber = now.monthStart.date.dayNumber + (now.date.day - 1) := by
    simp only [monthStart, Date.dayNumber]
    omega
  have hoffset : now.monthStart.offset = now.offset := rfl
  have hmidnight : now.monthStart.secondOfDay = 0 := rfl
  have hwhole : now.monthStart.microsecond = 0 := rfl
  rw [instant?, instant?, Option.map_map, hoffset, hnumber, hmidnight, hwhole, secondsIntoMonth]
  refine Option.map_congr fun o _ => ?_
  simp only [Function.comp_apply]
  omega

/-- The moment is the given number of seconds after midnight of the first of the clock's month,
not after the clock, and it is read by the clock's offset. There is no other such moment. -/
structure IsMonthDate (now : Moment) (seconds : Nat) (m : Moment) : Prop where
  valid : m.isValid = true
  offset : m.offset = now.offset
  year : m.date.year = now.date.year
  month : m.date.month = now.date.month
  instants : ∃ start current : Int, now.monthStart.instant? = some start ∧
    now.instant? = some current ∧ m.instant? = some (start + 1000000 * seconds) ∧
    start + 1000000 * seconds ≤ current
  only : ∀ n : Moment, n.isValid = true → n.offset = now.offset → n.instant? = m.instant? → n = m

/-- The drawn second is one of the month, at the offset of the clock. -/
theorem isMonthDate_intoMonth {now : Moment} (hvalid : now.isValid = true)
    (hoffset : now.offset.isSome = true) {seconds : Nat}
    (hseconds : seconds ≤ now.secondsIntoMonth) :
    IsMonthDate now seconds (now.intoMonth seconds) := by
  obtain ⟨o, ho⟩ := Option.isSome_iff_exists.mp hoffset
  have hmoment := isValid_intoMonth hvalid hseconds
  obtain ⟨start, hstart⟩ : ∃ start, now.monthStart.instant? = some start :=
    ⟨_, congrArg (Option.map _) ho⟩
  exact
    { valid := hmoment
      offset := rfl
      year := rfl
      month := rfl
      instants := by
        refine ⟨start, start + 1000000 * now.secondsIntoMonth + now.microsecond, hstart, ?_, ?_, ?_⟩
        · rw [instant?_eq_map_monthStart hvalid, hstart, Option.map_some]
        · rw [instant?_intoMonth, hstart, Option.map_some]
        · omega
      -- An instant and an offset leave no choice of a moment.
      only := fun n hn hno hinstant =>
        eq_of_instant?_eq hn hmoment (hno.trans ho) ho hinstant }

/-- From the second year of the calendar on, a month leaves it at its end only. -/
theorem isUniversal_intoMonth_of_le {now : Moment} (hvalid : now.isValid = true)
    (hyear : 2 ≤ now.date.year) {m n : Nat} (hmn : m ≤ n)
    (hn : (now.intoMonth n).isUniversal = true) : (now.intoMonth m).isUniversal = true := by
  obtain ⟨-, -, -, -, -, hoffset⟩ := now.isValid_iff.mp hvalid
  rw [isUniversal, instant?_intoMonth] at hn ⊢
  cases ho : now.offset with
  | none =>
      have hfloat : now.monthStart.instant? = none := congrArg (Option.map _) ho
      rw [hfloat]
      rfl
  | some o =>
      -- The month starts more than a day after the start of the calendar, whatever the offset.
      have hearly := (month_bounds hvalid).2.1 2 (by omega) hyear
      have hdays : Date.daysBeforeYear 2 = 365 := rfl
      have hsmall : o.microseconds.natAbs < 86400000000 := hoffset o ho
      rw [start_eq ho, Option.map_some] at hn ⊢
      simp only [Bool.and_eq_true, decide_eq_true_eq] at hn ⊢
      omega

/-- The last second of the month so far is that of the clock. -/
theorem intoMonth_secondsIntoMonth {now : Moment} (hvalid : now.isValid = true) :
    now.intoMonth now.secondsIntoMonth = { now with microsecond := 0 } := by
  obtain ⟨hdate, hhour, hminute, hsecond, -, -⟩ := now.isValid_iff.mp hvalid
  have hday := (now.date.isValid_iff.mp hdate).2.2.1
  obtain ⟨⟨year, month, day⟩, hour, minute, second, micro, offset⟩ := now
  simp only [intoMonth, monthStart, secondsIntoMonth, secondOfDay, mk.injEq, Date.mk.injEq,
    true_and, and_true] at hday hhour hminute hsecond ⊢
  omega

end Moment

/-! ### Drawing a date -/

section Draw

variable {σ : Type} [RandomSource σ]

/-- What is made is a text that denotes the moment drawn. -/
def ShowsDate (now : Moment) (schema : Option Value) (s : σ) : Prop :=
  ∃ text m, (synthesize now "date" schema : Synth σ Value).outcome s = .ok (.str text) ∧
    Moment.Denotes text m ∧ now.IsMonthDate (drawnSeconds now s) m

/-- The instant that comes back from the time stamp is less than a millisecond away from the one
that was drawn. If it is in the calendar, the moment there is shown, by the clock's offset;
otherwise there is a fault. -/
def ShowsStamp (now : Moment) (schema : Option Value) (s : σ) : Prop :=
  ∃ start instant : Int, now.monthStart.instant? = some start ∧
    instant = Moment.stamped start (drawnSeconds now s) ∧
    |instant - (start + 1000000 * drawnSeconds now s)| < 1000 ∧
    (0 ≤ instant ∧ instant < Moment.calendarEnd → ∃ text m,
      (synthesize now "date" schema : Synth σ Value).outcome s = .ok (.str text) ∧
        Moment.Denotes text m ∧ m.isValid = true ∧ m.offset = now.offset ∧
        m.instant? = some instant) ∧
    (¬ (0 ≤ instant ∧ instant < Moment.calendarEnd) →
      (synthesize now "date" schema : Synth σ Value).outcome s = .error (.fault .badValue))

/-- From every state a date is drawn by its time stamp, or the time stamp is none of the
calendar. -/
theorem showsStamp {now : Moment} (hvalid : now.isValid = true)
    (hoffset : now.offset.isSome = true) (hyear : 2 ≤ now.date.year) (schema : Option Value)
    (s : σ) : ShowsStamp now schema s := by
  obtain ⟨o, ho⟩ := Option.isSome_iff_exists.mp hoffset
  have hseconds := (Moment.month_bounds hvalid).1
  have hdrawn := drawnSeconds_le now s
  have hstart := Moment.start_eq ho
  have hclose := Moment.natAbs_start_sub_le hvalid ho
  obtain ⟨start, hvalue⟩ : ∃ start : Int,
      86400000000 * now.monthStart.date.dayNumber - o.microseconds = start := ⟨_, rfl⟩
  rw [hvalue] at hstart hclose
  have hnear := Moment.abs_stamped_sub_le hclose (show drawnSeconds now s ≤ 10 ^ 7 by omega)
  have hout : (synthesize now "date" schema : Synth σ Value).outcome s
      = dateOutcome now (drawnSeconds now s) := outcome_synthesize_date (by decide) now schema s
  rw [dateOutcome, Moment.drawn_eq hstart] at hout
  -- The moment is made from the stamped instant, if this is one of the calendar.
  refine ⟨start, _, hstart, rfl, hnear, fun hin => ?_, fun hout' => ?_⟩
  · rw [if_pos hin] at hout
    rw [abs_lt] at hnear
    obtain ⟨m, hm⟩ : ∃ m, now.microsecondsIntoMonth
        (Moment.stamped start (drawnSeconds now s) - start) = .ok m := by
      rw [Moment.microsecondsIntoMonth]
      split
      · exact ⟨_, rfl⟩
      · obtain ⟨day, hday⟩ := Moment.exists_previous? (d := now.monthStart.date) hyear
        rw [hday]
        exact ⟨_, rfl⟩
    obtain ⟨hmoment, hclock, hinstant⟩ :=
      Moment.microsecondsIntoMonth_spec hvalid hstart (by omega) (by omega) hm
    rw [hm] at hout
    exact ⟨m.text 'T', m, hout, Moment.denotes_text hmoment (hclock ▸ hoffset), hmoment, hclock,
      by rw [hinstant, add_sub_cancel]⟩
  · rw [if_neg hout'] at hout
    exact hout

/-- The moment that was drawn is shown just if the time stamp leads to it and it has a universal
time. -/
theorem showsDate_iff {now : Moment} (hvalid : now.isValid = true)
    (hoffset : now.offset.isSome = true) (hyear : 2 ≤ now.date.year) (schema : Option Value)
    (s : σ) : ShowsDate now schema s ↔
      now.IsExact (drawnSeconds now s) ∧
        (now.intoMonth (drawnSeconds now s)).isUniversal = true := by
  have hmonth := Moment.isMonthDate_intoMonth hvalid hoffset (drawnSeconds_le now s)
  obtain ⟨start, instant, hstart, rfl, -, hin, hout⟩ := showsStamp hvalid hoffset hyear schema s
  -- In whole seconds, to have a universal time is to be in the calendar.
  have huniversal : (now.intoMonth (drawnSeconds now s)).isUniversal = true ↔
      0 ≤ start + 1000000 * (drawnSeconds now s : Int) ∧
        start + 1000000 * (drawnSeconds now s : Int) < Moment.calendarEnd := by
    rw [Moment.isUniversal, Moment.instant?_intoMonth, hstart, Option.map_some, Bool.and_eq_true,
      decide_eq_true_eq, decide_eq_true_eq]
  rw [huniversal]
  refine ⟨fun ⟨text, m, hshown, hdenotes, hm⟩ => ?_, fun ⟨⟨start', hstart', hexact⟩, hcal⟩ => ?_⟩
  · by_cases hcal : 0 ≤ Moment.stamped start (drawnSeconds now s) ∧
        Moment.stamped start (drawnSeconds now s) < Moment.calendarEnd
    · obtain ⟨text', m', hshown', hdenotes', -, -, hinstant⟩ := hin hcal
      rw [hshown] at hshown'
      cases hshown'
      obtain ⟨start', current, hstart', -, hinstant', -⟩ := hm.instants
      rw [hdenotes.unique hdenotes', hinstant, Option.some.injEq] at hinstant'
      rw [hstart, Option.some.injEq] at hstart'
      subst hstart'
      exact ⟨⟨start, hstart, hinstant'⟩, hinstant' ▸ hcal⟩
    · rw [hout hcal] at hshown
      cases hshown
  · rw [hstart, Option.some.injEq] at hstart'
    subst hstart'
    rw [← hexact] at hcal
    obtain ⟨text, m, hshown, hdenotes, hmoment, hclock, hinstant⟩ := hin hcal
    have heq := hmonth.only m hmoment hclock
      (by rw [hinstant, Moment.instant?_intoMonth, hstart, Option.map_some, hexact])
    exact ⟨text, m, hshown, hdenotes, heq ▸ hmonth⟩

end Draw

/-- A date is the moment that many seconds after the start of the clock's month as are drawn, and
it is shown in ISO 8601 form, just if its time stamp is exact and it has a universal time. What is
shown otherwise is the moment that the time stamp leads to, if there is one, and a fault if not.

So every draw gives its date just if all time stamps of the month so far are exact and the clock
has a universal time, to the second. They are exact if the clock's offset is in whole seconds, and
in the years 1902 to 2037. -/
theorem synthesize_date (now : Moment) (hvalid : now.isValid = true)
    (hoffset : now.offset.isSome = true) (hyear : 2 ≤ now.date.year) :
    (∀ {σ : Type} [RandomSource σ] (schema : Option Value) (s : σ),
      ShowsStamp now schema s ∧
        (ShowsDate now schema s ↔ now.IsExact (drawnSeconds now s) ∧
          (now.intoMonth (drawnSeconds now s)).isUniversal = true)) ∧
    ((∀ {σ : Type} [RandomSource σ] (schema : Option Value) (s : σ), ShowsDate now schema s) ↔
      (∀ n ≤ now.secondsIntoMonth, now.IsExact n) ∧
        { now with microsecond := 0 }.isUniversal = true) ∧
    ((∀ o, now.offset = some o → 1000000 ∣ o.microseconds) ∨
      1902 ≤ now.date.year ∧ now.date.year ≤ 2037 →
        ∀ n ≤ now.secondsIntoMonth, now.IsExact n) := by
  refine ⟨fun {σ} _ schema s => ⟨showsStamp hvalid hoffset hyear schema s,
    showsDate_iff hvalid hoffset hyear schema s⟩, ⟨fun hshows => ?_, fun ⟨hexact, hcal⟩ => ?_⟩, ?_⟩
  · -- Pin the second.
    have hpinned (n : Nat) (hn : n ≤ now.secondsIntoMonth) :
        now.IsExact n ∧ (now.intoMonth n).isUniversal = true := by
      have hshown := hshows none (⟨⟩ : Pinned n)
      rwa [showsDate_iff hvalid hoffset hyear, drawnSeconds_pinned, Nat.min_eq_left hn] at hshown
    refine ⟨fun n hn => (hpinned n hn).1, ?_⟩
    rw [← Moment.intoMonth_secondsIntoMonth hvalid]
    exact (hpinned _ le_rfl).2
  -- A second of the month has a universal time if the last one has.
  · intro schema s
    rw [showsDate_iff hvalid hoffset hyear]
    rw [← Moment.intoMonth_secondsIntoMonth hvalid] at hcal
    exact ⟨hexact _ (drawnSeconds_le now s),
      Moment.isUniversal_intoMonth_of_le hvalid hyear (drawnSeconds_le now s) hcal⟩
  · rintro (hwhole | ⟨hfirst, hlast⟩) n hn
    · obtain ⟨o, ho⟩ := Option.isSome_iff_exists.mp hoffset
      obtain ⟨k, hk⟩ := hwhole o ho
      exact Moment.isExact_of_whole hvalid ho hk hn
    · exact Moment.isExact_of_year hvalid hoffset hfirst hlast hn

/-- Half past noon on a leap day, and a part of a second. -/
def leapClock : Moment := ⟨⟨2024, 2, 29⟩, 12, 30, 15, 250000, some (.ofMinutes 330)⟩

/-- On this clock every draw gives a date of its month. -/
theorem synthesize_date_leapClock :
    leapClock.isValid = true ∧ leapClock.offset.isSome = true ∧ 2 ≤ leapClock.date.year ∧
      ∀ {σ : Type} [RandomSource σ] (schema : Option Value) (s : σ),
        ShowsDate leapClock schema s := by
  obtain ⟨-, hshows, hexact⟩ := synthesize_date leapClock (by decide) (by decide) (by decide)
  exact ⟨by decide, by decide, by decide, hshows.mpr ⟨hexact (.inr (by decide)), by decide⟩⟩

/-- The last evening of the calendar, twelve hours behind universal time. Half of that day is
after the calendar ends. -/
def lastClock : Moment := ⟨⟨9999, 12, 31⟩, 23, 0, 0, 0, some (.ofMinutes (-720))⟩

/-- There a date can be drawn that cannot be made: the moment of the clock itself. -/
theorem not_showsDate_lastClock :
    lastClock.isValid = true ∧ 1970 ≤ lastClock.date.year ∧
      (synthesize lastClock "date" none : Synth (Pinned 2674800) Value).outcome ⟨⟩
        = .error (.fault .badValue) ∧
      ¬ ∀ {σ : Type} [RandomSource σ] (schema : Option Value) (s : σ),
        ShowsDate lastClock schema s := by
  have hout : (synthesize lastClock "date" none : Synth (Pinned 2674800) Value).outcome ⟨⟩
      = .error (.fault .badValue) := by
    rw [outcome_synthesize_date (by decide)]
    decide +kernel
  refine ⟨by decide, by decide, hout, fun hshows => ?_⟩
  obtain ⟨text, m, htext, -⟩ := hshows none (⟨⟩ : Pinned 2674800)
  rw [hout] at htext
  cases htext

/-- Seventeen microseconds ahead of universal time, in the year 9000. -/
def distantClock : Moment := ⟨⟨9000, 5, 17⟩, 12, 0, 0, 0, some ⟨17⟩⟩

-- There the time stamp of the start of the month leads to the evening before.
example : distantClock.drawn 0
    = .ok ⟨⟨9000, 4, 30⟩, 23, 59, 59, 999986, some ⟨17⟩⟩ := by decide +kernel

end RouteDocs
