import RouteDocs.Proofs.Numeral
import RouteDocs.Proofs.Shortest

/-!
# `RouteDocs.Proofs.FloatText`: the text of a double reads back

A double is written as digits with a point among them, or with a power of ten behind them.
`NumberText` has the parts of such a text. `exists_numberText` takes what `decimalText` writes
apart into them, in each of its layouts, and `NumberText.readFloat?_text` says what the reader
makes of the parts. Both speak of the same decimal number. `exists_floatText` joins the two: as
the shortest decimal of a double rounds to it, its text is read as the double itself.
-/

set_option autoImplicit false

namespace RouteDocs.Number

open Text Binary64

/-! ### The double nearest to digits and a power of ten -/

/-- Zeros in front of digits do not count. -/
theorem ofDecimals_dropWhile_zero (digits : List Nat) :
    ofDecimals (digits.dropWhile (· = 0)) = ofDecimals digits := by
  induction digits with
  | nil => rfl
  | cons d ds ih =>
      rw [List.dropWhile_cons]
      split
      · rename_i hd
        rw [ih, ofDecimals_cons, of_decide_eq_true hd, Nat.zero_mul, Nat.zero_add]
      · rfl

/-- A number whose first digit is not zero has no fewer digits. -/
theorem le_ofDecimals_of_dropWhile {digits : List Nat}
    (h : digits.dropWhile (· = 0) ≠ []) :
    10 ^ ((digits.dropWhile (· = 0)).length - 1) ≤ ofDecimals (digits.dropWhile (· = 0)) := by
  cases hsig : digits.dropWhile (· = 0) with
  | nil => exact absurd hsig h
  | cons d ds =>
      have hd : d ≠ 0 := by
        have := List.head_dropWhile_not (· = 0) h
        simpa [hsig] using this
      rw [ofDecimals_cons, List.length_cons, Nat.add_sub_cancel]
      exact (Nat.le_mul_of_pos_left _ (by omega)).trans (Nat.le_add_right _ _)

/-- What is far below the least double rounds to zero. -/
theorem nearestRank_of_lt {num den : Nat} (hnum : 0 < num) (hden : 0 < den)
    (h : (num : ℚ) / den < 2 ^ (-1100 : Int)) : nearestRank num den = 0 := by
  have hden' : (0 : ℚ) < den := by exact_mod_cast hden
  have hquot : (0 : ℚ) < (num : ℚ) / den := by positivity
  have hunit : (0 : ℚ) < 2 ^ (-1074 : Int) := by positivity
  have hsmall : (2 : ℚ) ^ (-1100 : Int) < 1 / 2 * 2 ^ (-1074 : Int) := by
    rw [show (-1100 : Int) = -26 + -1074 by norm_num, zpow_add₀ (by norm_num)]
    gcongr
    norm_num
  have hhalf : (num : ℚ) / den / 2 ^ (-1074 : Int) < 1 / 2 := by
    rw [div_lt_iff₀ hunit]
    exact h.trans hsmall
  have hpos : 0 < (num : ℚ) / den / 2 ^ (-1074 : Int) := by positivity
  rw [nearestRank_eq (m := 0) hnum hden (le_refl (-1074)) (.inl rfl) (hhalf.trans (by norm_num))
    (lt_trans (by norm_num) hpos) (lt_of_lt_of_eq hhalf (by norm_num))]
  rfl

/-- What is far above the largest double rounds to infinity. -/
theorem nearestRank_of_le {num den : Nat} (hnum : 0 < num) (hden : 0 < den)
    (h : (2 : ℚ) ^ (1100 : Int) ≤ (num : ℚ) / den) : nearestRank num den = infinityRank := by
  have hden' : (0 : ℚ) < den := by exact_mod_cast hden
  have hquot : (0 : ℚ) < (num : ℚ) / den := by positivity
  have hlog : 1100 ≤ floorLog2Ratio num den := by
    rw [floorLog2Ratio_eq hnum hden, ← Int.zpow_le_iff_le_log (by decide) hquot]
    exact h
  have hbinades : 2047 ≤ (max (floorLog2Ratio num den - 52) (-1074) + 1074).toNat := by omega
  rw [nearestRank, if_neg hnum.ne']
  apply min_eq_right
  exact (Nat.mul_le_mul_right binade hbinades).trans (Nat.le_add_right _ _)

/-- A bound between the largest double and the powers of ten that are tried. -/
theorem two_pow_le_ten_pow : (2 : ℚ) ^ 1100 ≤ 10 ^ 400 := by
  calc (2 : ℚ) ^ 1100 = (2 ^ 11) ^ 100 := by rw [← pow_mul]
    _ ≤ (10 ^ 4) ^ 100 := by
        gcongr
        norm_num
    _ = 10 ^ 400 := by rw [← pow_mul]

/-- A decimal whose digits all stand far behind the point is far below the least double. -/
theorem value_lt_of_length {digits : List Nat} (hdigits : ∀ d ∈ digits, d < 10) {exponent : Int}
    (h : exponent + digits.length < -400) :
    Decimal.value ⟨ofDecimals digits, exponent⟩ < 2 ^ (-1100 : Int) := by
  have hlt : (ofDecimals digits : ℚ) < 10 ^ digits.length := by
    exact_mod_cast ofDecimals_lt hdigits
  have hten : (0 : ℚ) < 10 ^ exponent := by positivity
  calc (ofDecimals digits : ℚ) * 10 ^ exponent
      < 10 ^ digits.length * 10 ^ exponent := by gcongr
    _ = 10 ^ (exponent + digits.length) := by
        rw [zpow_add₀ (by norm_num), zpow_natCast, mul_comm]
    _ ≤ 10 ^ (-400 : Int) := zpow_le_zpow_right₀ (by norm_num) h.le
    _ ≤ 2 ^ (-1100 : Int) := by
        rw [zpow_neg, zpow_neg]
        exact inv_anti₀ (by positivity) two_pow_le_ten_pow

/-- A decimal whose first digit is not zero, and stands far before the point, is far above the
largest double. -/
theorem le_value_of_length {digits : List Nat} (hne : digits ≠ [])
    (hlead : 10 ^ (digits.length - 1) ≤ ofDecimals digits) {exponent : Int}
    (h : 400 < exponent + digits.length) :
    (2 : ℚ) ^ (1100 : Int) ≤ Decimal.value ⟨ofDecimals digits, exponent⟩ := by
  have hlen : 0 < digits.length := List.length_pos_iff.mpr hne
  have hle : (10 : ℚ) ^ (digits.length - 1) ≤ ofDecimals digits := by exact_mod_cast hlead
  calc (2 : ℚ) ^ (1100 : Int) ≤ 10 ^ (400 : Int) := two_pow_le_ten_pow
    _ ≤ 10 ^ (exponent + ((digits.length - 1 : Nat) : Int)) :=
        zpow_le_zpow_right₀ (by norm_num) (by omega)
    _ = 10 ^ (digits.length - 1) * 10 ^ exponent := by
        rw [zpow_add₀ (by norm_num), zpow_natCast, mul_comm]
    _ ≤ ofDecimals digits * 10 ^ exponent := by gcongr

/-- The fraction of a decimal is zero where its digits are. -/
theorem ratio_fst_eq_zero_iff (d : Decimal) : d.ratio.1 = 0 ↔ d.digits = 0 := by
  rw [Decimal.ratio]
  split <;> simp

/-- Digits with a power of ten are read as the double that they round to. -/
theorem scaled_eq {digits : List Nat} (hdigits : ∀ d ∈ digits, d < 10) {exponent : Int} {rank : Nat}
    (h : (Decimal.mk (ofDecimals digits) exponent).readsBackAs rank = true) (hpos : 0 < rank)
    (hfin : rank < infinityRank) (negative : Bool) :
    scaled negative digits exponent = ⟨negative, rank⟩ := by
  have hlead := @le_ofDecimals_of_dropWhile digits
  have hsig : ∀ d ∈ digits.dropWhile (· = 0), d < 10 := fun d hd =>
    hdigits d ((List.dropWhile_suffix _).subset hd)
  rw [← ofDecimals_dropWhile_zero] at h
  simp only [scaled]
  generalize digits.dropWhile (· = 0) = significant at h hlead hsig ⊢
  rw [Decimal.readsBackAs, beq_iff_eq] at h
  have hden := Decimal.ratio_pos ⟨ofDecimals significant, exponent⟩
  have hvalue := Decimal.ratio_eq ⟨ofDecimals significant, exponent⟩
  have hnum : (Decimal.ratio ⟨ofDecimals significant, exponent⟩).1 ≠ 0 := by
    intro hzero
    rw [hzero, nearestRank, if_pos rfl] at h
    omega
  have hn : ofDecimals significant ≠ 0 := mt (ratio_fst_eq_zero_iff ⟨_, exponent⟩).mpr hnum
  have hnum := Nat.pos_of_ne_zero hnum
  -- The value lies between two powers of ten, and so within the bounds of the reader.
  have hlow : ¬ exponent + significant.length < -400 := by
    intro htop
    rw [nearestRank_of_lt hnum hden (hvalue ▸ value_lt_of_length hsig htop)] at h
    omega
  have hhigh : ¬ 400 < exponent + significant.length := by
    intro htop
    have hne : significant ≠ [] := by
      rintro rfl
      exact hn rfl
    rw [nearestRank_of_le hnum hden (hvalue ▸ le_value_of_length hne (hlead hne) htop)] at h
    omega
  have hzero : (decide (ofDecimals significant = 0) ||
      decide (exponent + significant.length < -400))
      = false := by
    simp [hn, hlow]
  rw [hzero, if_neg (by simp), if_neg hhigh]
  rw [Decimal.ratio] at h
  split at h
  · rename_i hexp
    rw [if_pos hexp, ofRatio, h]
  · rename_i hexp
    rw [if_neg hexp, ofRatio, h]

/-! ### The parts of a number's text -/

/-- The parts of a number's text: digits, digits behind a point, and a power of ten with its
sign, true for a minus. -/
structure NumberText where
  /-- The digits before the point. -/
  whole : Text
  /-- The digits behind the point, if there is a point. -/
  fraction : Option Text
  /-- The power of ten, if one is written. -/
  exponent : Option (Bool × Text)
  /-- A number starts with a digit. -/
  whole_ne_nil : whole ≠ []
  areDigits_whole : AreDigits whole
  areDigits_fraction : ∀ f ∈ fraction, AreDigits f
  areDigits_exponent : ∀ e ∈ exponent, AreDigits e.2 ∧ e.2 ≠ []
  /-- It is not told apart from a whole number otherwise. -/
  isSome_or_isSome : fraction.isSome = true ∨ exponent.isSome = true

namespace NumberText

/-- The point and the digits behind it. -/
def fractionText (p : NumberText) : Text :=
  match p.fraction with
  | none => []
  | some f => .char '.' :: f

/-- The power of ten as written. -/
def exponentText (p : NumberText) : Text :=
  match p.exponent with
  | none => []
  | some (negative, ds) => .char 'e' :: .char (if negative then '-' else '+') :: ds

/-- The text. -/
def text (p : NumberText) : Text := p.whole ++ (p.fractionText ++ p.exponentText)

/-- The digits on both sides of the point. -/
def digits (p : NumberText) : Text := p.whole ++ p.fraction.getD []

/-- The power of ten. -/
def power (p : NumberText) : Int :=
  match p.exponent with
  | none => 0
  | some (negative, ds) =>
    if negative then -(ofDecimals (digitValues ds) : Int) else ofDecimals (digitValues ds)

/-- The number that the text denotes. -/
def decimal (p : NumberText) : Decimal :=
  ⟨ofDecimals (digitValues p.digits), p.power - (p.fraction.getD []).length⟩

/-- The digits on both sides of the point are digits. -/
theorem areDigits_digits (p : NumberText) : AreDigits p.digits := by
  intro c hc
  rcases List.mem_append.mp hc with hc | hc
  · exact p.areDigits_whole c hc
  · cases hf : p.fraction with
    | none => simp [hf] at hc
    | some f => exact p.areDigits_fraction f hf c (by simpa [hf] using hc)

/-- The characters of a number's text. -/
def IsPart (c : CodePoint) : Prop :=
  c.isDigit = true ∨ c = .char '.' ∨ c = .char 'e' ∨ c = .char '+' ∨ c = .char '-'

/-- The text of a number is made of the characters of numbers. -/
theorem isPart_of_mem {p : NumberText} {c : CodePoint} (h : c ∈ p.text) : IsPart c := by
  rw [text, List.mem_append, List.mem_append] at h
  -- The three parts of a number: digits, then a point with digits, then a mark with a sign and
  -- digits.
  rcases h with h | h | h
  · exact .inl (p.areDigits_whole c h)
  · rw [fractionText] at h
    cases hf : p.fraction with
    | none => simp [hf] at h
    | some f =>
        simp only [hf, List.mem_cons] at h
        rcases h with rfl | h
        · exact .inr (.inl rfl)
        · exact .inl (p.areDigits_fraction f hf c h)
  · rw [exponentText] at h
    cases he : p.exponent with
    | none => simp [he] at h
    | some e =>
        obtain ⟨negative, ds⟩ := e
        simp only [he, List.mem_cons] at h
        rcases h with rfl | rfl | h
        · exact .inr (.inr (.inl rfl))
        · cases negative
          · exact .inr (.inr (.inr (.inl rfl)))
          · exact .inr (.inr (.inr (.inr rfl)))
        · exact .inl ((p.areDigits_exponent _ he).1 c h)

/-- The first character is a digit. -/
theorem exists_text_eq_cons (p : NumberText) :
    ∃ c cs, p.text = c :: cs ∧ c.isDigit = true := by
  cases hw : p.whole with
  | nil => exact absurd hw p.whole_ne_nil
  | cons c cs =>
      refine ⟨c, cs ++ (p.fractionText ++ p.exponentText), ?_, p.areDigits_whole c (by simp [hw])⟩
      rw [text, hw, List.cons_append]

end NumberText

/-- A run of digits is read up to a character that is none. -/
theorem spanDecimals_append {ds rest : Text} (hds : AreDigits ds)
    (hrest : ∀ c ∈ rest.head?, decimalValue? c = none) :
    spanDecimals (ds ++ rest) = (digitValues ds, rest) := by
  induction ds with
  | nil =>
      cases rest with
      | nil => rfl
      | cons c cs =>
          rw [List.nil_append, spanDecimals, hrest c rfl]
          rfl
  | cons d ds ih =>
      have hd := hds d List.mem_cons_self
      rw [List.cons_append, spanDecimals, decimalValue?_of_isDigit hd,
        ih fun c hc => hds c (List.mem_cons_of_mem _ hc)]
      rfl

/-- The power of ten is read back from its text. -/
theorem NumberText.readExponent?_exponentText (p : NumberText) :
    readExponent? p.exponentText = some p.power := by
  rw [exponentText, power]
  cases he : p.exponent with
  | none => rfl
  | some e =>
      obtain ⟨negative, ds⟩ := e
      obtain ⟨hdigits, hne⟩ := p.areDigits_exponent _ he
      have hread : decimals? ds = some (digitValues ds) := decimals?_of_areDigits hdigits
      obtain ⟨v, vs, hvs⟩ := List.exists_cons_of_ne_nil (show digitValues ds ≠ [] by
        simpa [digitValues] using hne)
      rw [hvs] at hread
      cases negative <;> simp [readExponent?, takeSign, hread, hvs]

/-- A digit is the same in small letters. -/
theorem toLower_of_isDigit {c : CodePoint} (h : c.isDigit = true) : c.toLower = c := by
  cases c with
  | surrogate offset => rfl
  | char ch =>
      simp only [CodePoint.isDigit, CodePoint.isOf, Char.isDigit, Bool.and_eq_true,
        decide_eq_true_eq] at h
      have hnot : ¬ ('A'.val ≤ ch.val ∧ ch.val ≤ 'Z'.val) := by
        rintro ⟨hge, -⟩
        have hle : ch.val.toNat ≤ 57 := h.2
        have hge' : 65 ≤ ch.val.toNat := hge
        omega
      have hlower : ch.toLower = ch := dif_neg hnot
      rw [CodePoint.toLower, CodePoint.mapChar, hlower]

/-- What is read in a number's text. -/
theorem NumberText.readFloat?_text (p : NumberText) :
    readFloat? p.text
      = some (scaled false (digitValues p.digits) (p.power - (p.fraction.getD []).length)) := by
  have hplain : .char '_' ∉ p.text := by
    intro hmem
    have hpart := isPart_of_mem hmem
    simp [IsPart, CodePoint.isDigit, CodePoint.isOf] at hpart
  obtain ⟨c, cs, htext, hc⟩ := p.exists_text_eq_cons
  have hword : ∀ (d : Char) (w : Text), d.isDigit = false →
      p.text.map CodePoint.toLower ≠ .char d :: w := by
    intro d w hd heq
    rw [htext, List.map_cons, toLower_of_isDigit hc] at heq
    rw [(List.cons.inj heq).1, CodePoint.isDigit, CodePoint.isOf, hd] at hc
    cases hc
  have hinf : ¬ p.text.map CodePoint.toLower = ("inf" : Text) := hword 'i' _ rfl
  have hinfinity : ¬ p.text.map CodePoint.toLower = ("infinity" : Text) := hword 'i' _ rfl
  have hnan : ¬ p.text.map CodePoint.toLower = ("nan" : Text) := hword 'n' _ rfl
  have hsign : takeSign p.text = (false, p.text) := by
    rw [htext, takeSign_of_isDigit hc]
  have hend : ∀ c ∈ p.exponentText.head?, decimalValue? c = none := by
    rw [exponentText]
    split
    · simp
    · rintro c ⟨⟩
      rfl
  have hwhole : spanDecimals p.text = (digitValues p.whole, p.fractionText ++ p.exponentText) := by
    apply spanDecimals_append p.areDigits_whole
    rw [fractionText]
    split
    · exact hend
    · rintro c ⟨⟩
      rfl
  rw [readFloat?, dropUnderscores?_eq_self hplain]
  simp only [Option.bind_eq_bind, Option.bind_some, hsign]
  rw [if_neg (by simp [hinf, hinfinity]), if_neg hnan, hwhole]
  have hne : (digitValues p.whole).isEmpty = false := by simp [digitValues, p.whole_ne_nil]
  have hexponent := p.readExponent?_exponentText
  cases hf : p.fraction with
  | some f =>
      have hrest : p.fractionText = .char '.' :: f := by rw [fractionText, hf]
      have hread : spanDecimals (f ++ p.exponentText) = (digitValues f, p.exponentText) :=
        spanDecimals_append (p.areDigits_fraction f hf) hend
      simp only [hrest, List.cons_append, hread, hne, Bool.false_and, Bool.false_eq_true, if_false,
        hexponent, Option.bind_some]
      simp [digits, digitValues, hf]
  | none =>
      have hrest : p.fractionText = [] := by rw [fractionText, hf]
      rw [hrest, List.nil_append]
      -- What follows the digits is no point, so there are none behind one.
      rw [exponentText] at hexponent ⊢
      split at hexponent <;>
        simp [digits, digitValues, hf, hexponent, p.whole_ne_nil]

/-! ### What is written -/

/-- Zeros are digits. -/
theorem areDigits_zeros (n : Nat) : AreDigits (zeros n) := by
  intro c hc
  rw [(List.mem_replicate.mp hc).2]
  rfl

/-- Digits with zeros in front are digits. -/
theorem areDigits_padded (width n : Nat) : AreDigits (padded width n) :=
  AreDigits.append (areDigits_zeros _) (areDigits_natText n)

/-- Their values are zeros. -/
theorem digitValues_zeros (n : Nat) : digitValues (zeros n) = List.replicate n 0 := by
  simp [digitValues, zeros, CodePoint.toNat]

/-- Zeros in front count for nothing. -/
theorem ofDecimals_zeros_append (n : Nat) (s : Text) :
    ofDecimals (digitValues (zeros n ++ s)) = ofDecimals (digitValues s) := by
  rw [digitValues_append, ofDecimals_append, digitValues_zeros, ofDecimals_replicate_zero,
    Nat.zero_mul, Nat.zero_add]

/-- Zeros in front of a number do not change it. -/
theorem ofDecimals_padded (width n : Nat) : ofDecimals (digitValues (padded width n)) = n := by
  rw [padded, ofDecimals_zeros_append, ofDecimals_natText]

/-- A power of ten in front of its digits, as it is written. -/
theorem exponentMark_append (e : Int) :
    (if e < 0 then ("e-" : Text) else "e+") ++ padded 2 e.natAbs
      = .char 'e' :: .char (if decide (e < 0) = true then '-' else '+') :: padded 2 e.natAbs := by
  split
  · rename_i h
    simp only [h, decide_true, if_true]
    rfl
  · rename_i h
    simp only [h, decide_false, Bool.false_eq_true, if_false]
    rfl

section Layouts

variable {ds : Text} (hds : AreDigits ds)
include hds

/-- One digit before the point, the others behind it, and a power of ten. -/
theorem exists_scientific (hne : ds ≠ []) (e : Int) :
    ∃ p : NumberText,
      ds.take 1 ++ (if ds.length ≤ 1 then [] else ("." : Text) ++ ds.drop 1) ++
          (if e < 0 then ("e-" : Text) else "e+") ++ padded 2 e.natAbs = p.text ∧
        p.decimal = ⟨ofDecimals (digitValues ds), e - (ds.length - 1 : Nat)⟩ := by
  have hexponent : ∀ x ∈ some (decide (e < 0), padded 2 e.natAbs), AreDigits x.2 ∧ x.2 ≠ [] := by
    rintro x ⟨⟩
    exact ⟨areDigits_padded 2 _, by simp [padded, natText_ne_nil]⟩
  have hwhole : AreDigits (ds.take 1) := fun c hc => hds c (List.mem_of_mem_take hc)
  have hpower : ∀ p : NumberText, p.exponent = some (decide (e < 0), padded 2 e.natAbs) →
      p.power = e := by
    intro p hp
    rw [NumberText.power, hp]
    simp only [ofDecimals_padded, decide_eq_true_eq]
    split <;> omega
  -- A single digit has no point behind it.
  by_cases hlen : ds.length ≤ 1
  · refine ⟨⟨ds.take 1, none, some (decide (e < 0), padded 2 e.natAbs), by simp [hne],
    hwhole, by simp,
      hexponent, .inr rfl⟩, ?_, ?_⟩
    · rw [if_pos hlen, List.append_nil, List.append_assoc, exponentMark_append]
      rfl
    · rw [NumberText.decimal, hpower _ rfl]
      simp [NumberText.digits, List.take_of_length_le hlen, show ds.length - 1 = 0 by omega]
  · refine ⟨⟨ds.take 1, some (ds.drop 1), some (decide (e < 0), padded 2 e.natAbs), by simp [hne],
      hwhole, ?_, hexponent, .inl rfl⟩, ?_, ?_⟩
    · rintro f ⟨⟩ c hc
      exact hds c (List.mem_of_mem_drop hc)
    · rw [if_neg hlen, List.append_assoc, List.append_assoc, List.append_assoc, exponentMark_append]
      rfl
    · rw [NumberText.decimal, hpower _ rfl]
      simp only [NumberText.digits, Option.getD_some, List.take_append_drop, List.length_drop]

/-- All digits behind the point, after zeros. -/
theorem exists_small (k : Nat) :
    ∃ p : NumberText, ("0." : Text) ++ zeros k ++ ds = p.text ∧
      p.decimal = ⟨ofDecimals (digitValues ds), -(k + ds.length : Nat)⟩ := by
  refine ⟨⟨("0" : Text), some (zeros k ++ ds), none, by simp [Text.ofString], areDigits_zeros 1, ?_,
    by simp, .inl rfl⟩, ?_, ?_⟩
  · rintro f ⟨⟩
    exact AreDigits.append (areDigits_zeros k) hds
  · simp [NumberText.text, NumberText.fractionText, NumberText.exponentText, Text.ofString]
  · rw [NumberText.decimal, NumberText.digits, NumberText.power]
    have hzero : ("0" : Text) ++ (zeros k ++ ds) = zeros 1 ++ (zeros k ++ ds) := rfl
    have hlen : (zeros k ++ ds).length = k + ds.length := by simp [zeros]
    simp only [Option.getD_some, hzero, ofDecimals_zeros_append, hlen, zero_sub]

/-- All digits before the point, with zeros after them up to it. -/
theorem exists_large (hne : ds ≠ []) (k : Nat) :
    ∃ p : NumberText, ds ++ zeros k ++ ".0" = p.text ∧
      p.decimal = ⟨ofDecimals (digitValues ds) * 10 ^ (k + 1), -1⟩ := by
  refine ⟨⟨ds ++ zeros k, some ("0" : Text), none, by simp [hne],
    hds.append (areDigits_zeros k), ?_,
    by simp, .inl rfl⟩, ?_, ?_⟩
  · rintro f ⟨⟩
    exact areDigits_zeros 1
  · simp [NumberText.text, NumberText.fractionText, NumberText.exponentText, Text.ofString]
  · rw [NumberText.decimal, NumberText.digits, NumberText.power]
    have hzeros : ds ++ zeros k ++ ("0" : Text) = ds ++ zeros (k + 1) := by
      rw [List.append_assoc]
      congr 1
      exact List.replicate_succ'.symm
    have hlen : (("0" : Text)).length = 1 := rfl
    simp only [Option.getD_some, hzeros, digitValues_append, ofDecimals_append, digitValues_zeros,
      ofDecimals_replicate_zero, List.length_replicate, hlen, Nat.add_zero]
    rfl

/-- The point among the digits. -/
theorem exists_pointed {n : Nat} (hpos : 0 < n) (hn : n < ds.length) :
    ∃ p : NumberText, ds.take n ++ "." ++ ds.drop n = p.text ∧
      p.decimal = ⟨ofDecimals (digitValues ds), -(ds.length - n : Nat)⟩ := by
  have hne : ds.take n ≠ [] := by
    rw [← List.length_pos_iff, List.length_take]
    omega
  refine ⟨⟨ds.take n, some (ds.drop n), none, hne, fun c hc => hds c (List.mem_of_mem_take hc), ?_,
    by simp, .inl rfl⟩, ?_, ?_⟩
  · rintro f ⟨⟩ c hc
    exact hds c (List.mem_of_mem_drop hc)
  · simp [NumberText.text, NumberText.fractionText, NumberText.exponentText, Text.ofString]
  · rw [NumberText.decimal, NumberText.digits, NumberText.power]
    simp [List.take_append_drop]

end Layouts

/-- A decimal in each of its layouts is a number's text that denotes it. -/
theorem exists_numberText (d : Decimal) :
    ∃ p : NumberText, decimalText d = p.text ∧ p.decimal.value = d.value := by
  have hds : AreDigits (natText d.digits) := areDigits_natText d.digits
  have hne : natText d.digits ≠ [] := natText_ne_nil d.digits
  have hlen : 0 < (natText d.digits).length := List.length_pos_iff.mpr hne
  have hdigits : ofDecimals (digitValues (natText d.digits)) = d.digits :=
    ofDecimals_natText d.digits
  simp only [decimalText]
  -- The power of ten of the first digit decides on the layout.
  generalize hX : d.exponent + ((natText d.digits).length : Int) - 1 = e
  split
  · obtain ⟨p, htext, hvalue⟩ := exists_scientific hds hne e
    refine ⟨p, htext, ?_⟩
    have hsame : e - ((natText d.digits).length - 1 : Nat) = d.exponent := by omega
    rw [hvalue, hdigits, hsame]
  · split
    · obtain ⟨p, htext, hvalue⟩ := exists_small hds (-e - 1).toNat
      refine ⟨p, htext, ?_⟩
      have hsame : (-((-e - 1).toNat + (natText d.digits).length : Nat) : Int) = d.exponent := by
        omega
      rw [hvalue, hdigits, hsame]
    · split
      · rename_i hwhole
        obtain ⟨p, htext, hvalue⟩ := exists_large hds hne (e.toNat + 1 - (natText d.digits).length)
        refine ⟨p, htext, ?_⟩
        have hsame : ((e.toNat + 1 - (natText d.digits).length + 1 : Nat) : Int) + -1
            = d.exponent := by
          omega
        rw [hvalue, hdigits, Decimal.value, Decimal.value, ← hsame, zpow_add₀ (by norm_num),
          zpow_natCast]
        push_cast
        ring
      · rename_i hwhole
        obtain ⟨p, htext, hvalue⟩ := exists_pointed hds (show 0 < e.toNat + 1 by omega) (by omega)
        refine ⟨p, htext, ?_⟩
        have hsame : (-((natText d.digits).length - (e.toNat + 1) : Nat) : Int) = d.exponent := by
          omega
        rw [hvalue, hdigits, hsame]

/-- A minus in front of a text, or nothing. -/
def signed (negative : Bool) (s : Text) : Text := if negative then .char '-' :: s else s

/-- The text of a double that is finite has its sign and the text of a number, which reads as
its magnitude. -/
theorem exists_floatText (words : Words) {x : Binary64} (hfin : x.isFinite = true) :
    ∃ p : NumberText, floatText words x = signed x.negative p.text ∧
      readFloat? p.text = some ⟨false, x.rank⟩ := by
  have hrank : x.rank < infinityRank := of_decide_eq_true hfin
  have hnan : x.isNaN = false := decide_eq_false (by omega)
  have hinf : x.isInfinite = false := beq_false_of_ne (by omega)
  have htext : floatText words x
      = signed x.negative (if x.isZero then "0.0" else decimalText (shortest x.rank)) := by
    simp only [floatText, hnan, hinf, Bool.false_eq_true, if_false]
    rfl
  rw [htext]
  by_cases hzero : x.rank = 0
  · have hx : x.isZero = true := beq_iff_eq.mpr hzero
    refine ⟨⟨("0" : Text), some ("0" : Text), none, by decide, areDigits_zeros 1,
      ?_, by simp, .inl rfl⟩,
      ?_, ?_⟩
    · rintro f ⟨⟩
      exact areDigits_zeros 1
    · rw [if_pos hx]
      rfl
    · rw [hzero]
      decide
  · have hx : x.isZero = false := beq_false_of_ne hzero
    obtain ⟨p, htext, hvalue⟩ := exists_numberText (shortest x.rank)
    -- The shortest decimal reads back as the double, and its text denotes the same number.
    have hback := shortest_readsBackAs (Nat.pos_of_ne_zero hzero) hrank
    rw [← Decimal.readsBackAs_congr hvalue] at hback
    refine ⟨p, by rw [hx, ← htext]; rfl, ?_⟩
    rw [p.readFloat?_text, scaled_eq (digitValues_lt p.areDigits_digits) hback
      (Nat.pos_of_ne_zero hzero) hrank]

end RouteDocs.Number
