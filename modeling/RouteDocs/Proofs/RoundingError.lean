import RouteDocs.Number.Binary64
import RouteDocs.Proofs.Shortest

/-!
# `RouteDocs.Proofs.RoundingError`: how far a double is from what it stands for

All arithmetic of doubles is exact on ratios and rounded once. This module bounds what that
one rounding changes. `Binary64.value` is the rational number that a finite double is, and the
nearest double of a quotient differs from it by one part in `2 ^ 53`, or by half of the least
double (`abs_magnitude_nearestRank_sub_le`). The same bound then holds of sums and products
(`abs_value_add_sub_le`, `abs_value_mul_sub_le`).

A whole number below `2 ^ 53` is a double itself (`magnitude_nearestRank_of_nat`), and so is
a sum of doubles that is such a number (`value_add_of_int`).
-/

set_option autoImplicit false

namespace RouteDocs

namespace Number

/-- A rounded quotient is within a half of the quotient. -/
theorem abs_roundDiv_sub_le (num : Nat) {den : Nat} (hden : 0 < den) :
    |(roundDiv num den : ℚ) - num / den| ≤ 1 / 2 := by
  have hdiv : den * (num / den) + num % den = num := Nat.div_add_mod num den
  have hmod : num % den < den := Nat.mod_lt _ hden
  have hden' : (0 : ℚ) < den := by exact_mod_cast hden
  -- In whole numbers: twice the distance is at most the denominator.
  have hnear : 2 * num ≤ 2 * (roundDiv num den * den) + den ∧
      2 * (roundDiv num den * den) ≤ 2 * num + den := by
    simp only [roundDiv]
    generalize num / den = q at hdiv ⊢
    generalize num % den = r at hdiv hmod ⊢
    subst hdiv
    have hsame : q * den = den * q := Nat.mul_comm q den
    have hnext : (q + 1) * den = den * q + den := by ring
    split
    · omega
    · split
      · omega
      · -- A tie goes up by one at most.
        obtain hq | hq : q % 2 = 0 ∨ q % 2 = 1 := by omega
        · rw [hq, Nat.add_zero]
          omega
        · rw [hq]
          omega
  have hlow : (2 * num : ℚ) ≤ 2 * (roundDiv num den * den) + den := by exact_mod_cast hnear.1
  have hhigh : (2 * (roundDiv num den * den) : ℚ) ≤ 2 * num + den := by exact_mod_cast hnear.2
  rw [abs_le]
  constructor
  · rw [neg_le_sub_iff_le_add, div_le_iff₀ hden']
    linarith
  · rw [sub_le_iff_le_add, ← sub_le_iff_le_add', le_div_iff₀ hden']
    linarith

end Number

namespace Binary64

open Number

/-! ### Nearest doubles -/

/-- A number of spacings, from `2 ^ 52` on unless the spacing is the least, is a double. -/
theorem magnitude_of_spacings {e : Int} {q : Nat} (he : -1074 ≤ e) (hlow : e = -1074 ∨ 2 ^ 52 ≤ q)
    (hhigh : q ≤ 2 ^ 53) : magnitude ((e + 1074).toNat * binade + q) = q * 2 ^ e := by
  have hbinade : binade = 2 ^ 52 := rfl
  obtain ⟨n, hn⟩ : ∃ n : Nat, e = n - 1074 := ⟨(e + 1074).toNat, by omega⟩
  have hcount : (e + 1074).toNat = n := by omega
  rw [hcount, magnitude]
  by_cases hq : q < 2 ^ 52
  · -- Below the normal range.
    have hleast : e = -1074 := hlow.resolve_right (by omega)
    have hzero : n = 0 := by omega
    rw [significand, exponent, hzero, Nat.zero_mul, Nat.zero_add, if_pos (hbinade ▸ hq),
      if_pos (hbinade ▸ hq), hleast]
  obtain ⟨r, rfl⟩ : ∃ r, q = binade + r := ⟨q - binade, by omega⟩
  by_cases hr : r < binade
  · have hrank : n * binade + (binade + r) = binade * (n + 1) + r := by ring
    have hquot : (binade * (n + 1) + r) / binade = n + 1 := by
      rw [Nat.mul_add_div (by decide), Nat.div_eq_of_lt hr, Nat.add_zero]
    have hrest : (binade * (n + 1) + r) % binade = r := by
      rw [Nat.mul_add_mod, Nat.mod_eq_of_lt hr]
    have hge : ¬ binade * (n + 1) + r < binade := by
      rw [Nat.mul_succ]
      omega
    rw [significand, exponent, hrank, if_neg hge, if_neg hge, hquot, hrest, hn]
    push_cast
    congr 1
    · ring
    · congr 1
      ring
  · -- The next power of two is the least double of the next binade.
    obtain rfl : r = binade := by omega
    have hrank : n * binade + (binade + binade) = binade * (n + 2) := by ring
    have hquot : binade * (n + 2) / binade = n + 2 := Nat.mul_div_cancel_left _ (by decide)
    have hrest : binade * (n + 2) % binade = 0 := Nat.mul_mod_right _ _
    have hge : ¬ binade * (n + 2) < binade := by
      rw [Nat.mul_succ]
      omega
    rw [significand, exponent, hrank, if_neg hge, if_neg hge, hquot, hrest, Nat.zero_add, hn]
    have hexp : (((n + 2 : Nat) : Int) - 1075 : Int) = (n - 1074 : Int) + 1 := by
      push_cast
      ring
    rw [hexp, zpow_add_one₀ (by norm_num)]
    push_cast
    ring

/-- A significand at an exponent that is not too large is a finite double. -/
theorem rank_lt_infinityRank {e : Int} {q : Nat} (he : e ≤ 948) (hq : q ≤ 2 ^ 53) :
    (e + 1074).toNat * binade + q < infinityRank := by
  have hbinade : binade = 2 ^ 52 := rfl
  have hcount : (e + 1074).toNat ≤ 2022 := by omega
  have htop : infinityRank = 2047 * binade := rfl
  have hrank := Nat.mul_le_mul_right binade hcount
  omega

/-- A quotient is rounded to a number of spacings that is within a half of what it is. -/
theorem abs_roundDiv_spacings_sub_le (num : Nat) {den : Nat} (hden : 0 < den) (e : Int) :
    |((if 0 ≤ e then roundDiv num (den * Nat.pow 2 e.toNat)
        else roundDiv (num * Nat.pow 2 (-e).toNat) den : Nat) : ℚ) - num / den / 2 ^ e| ≤ 1 / 2 := by
  split
  -- The power of two stands in the denominator, or else in the numerator.
  · rename_i hnonneg
    have h := abs_roundDiv_sub_le num (Nat.mul_pos hden (Nat.two_pow_pos e.toNat))
    push_cast at h
    rwa [zpow_of_nonneg 2 hnonneg, div_div]
  · rename_i hneg
    have h := abs_roundDiv_sub_le (num * 2 ^ (-e).toNat) hden
    push_cast at h
    rwa [zpow_of_neg 2 hneg, div_inv_eq_mul, div_mul_eq_mul_div]

/-- The spacing of doubles near a number is that of its binade, or the least one. The number has
at least `2 ^ 52` of the first, and never as many as `2 ^ 53`. -/
theorem spacing_bounds {x : ℚ} (hx : 0 < x) (hbound : x < 2 ^ 100) {e : Int}
    (he : max (Int.log 2 x - 52) (-1074) = e) :
    -1074 ≤ e ∧ e ≤ 948 ∧ (e = -1074 ∨ (2 : ℚ) ^ e * 2 ^ 52 ≤ x) ∧ x / 2 ^ e < 2 ^ 53 := by
  -- The binary logarithm is the exponent of the binade.
  have hlog : (2 : ℚ) ^ Int.log 2 x ≤ x := by
    exact_mod_cast Int.zpow_log_le_self (b := 2) (by decide) hx
  have hlog' : x < 2 ^ (Int.log 2 x + 1) := by
    exact_mod_cast Int.lt_zpow_succ_log_self (b := 2) (by decide) x
  have htop : Int.log 2 x < 100 := by
    rw [← Int.lt_zpow_iff_log_lt (by decide) hx]
    exact_mod_cast hbound
  refine ⟨by omega, by omega, ?_, ?_⟩
  · by_cases hleast : e = -1074
    · exact .inl hleast
    · obtain rfl : e = Int.log 2 x - 52 := by omega
      refine .inr (le_trans (le_of_eq ?_) hlog)
      rw [← zpow_natCast, ← zpow_add₀ (by norm_num)]
      norm_num
  · rw [div_lt_iff₀ (by positivity), ← zpow_natCast, ← zpow_add₀ (by norm_num)]
    refine lt_of_lt_of_le hlog' (zpow_le_zpow_right₀ (by norm_num) ?_)
    push_cast
    omega

/-- The nearest double of a quotient is a whole number of spacings, within a half of the number
of spacings that the quotient is. -/
theorem exists_spacings {num den : Nat} (hnum : 0 < num) (hden : 0 < den)
    (hbound : (num : ℚ) / den < 2 ^ 100) :
    ∃ (e : Int) (q : Nat), (e = -1074 ∨ (2 : ℚ) ^ e * 2 ^ 52 ≤ num / den) ∧
      nearestRank num den < infinityRank ∧ magnitude (nearestRank num den) = q * 2 ^ e ∧
      |(q : ℚ) - num / den / 2 ^ e| ≤ 1 / 2 := by
  have hquot : (0 : ℚ) < (num : ℚ) / den := by positivity
  obtain ⟨e, he⟩ : ∃ e, max (floorLog2Ratio num den - 52) (-1074) = e := ⟨_, rfl⟩
  have hnear := abs_roundDiv_spacings_sub_le num hden e
  obtain ⟨q, hq⟩ : ∃ q, (if 0 ≤ e then roundDiv num (den * Nat.pow 2 e.toNat)
      else roundDiv (num * Nat.pow 2 (-e).toNat) den) = q := ⟨_, rfl⟩
  rw [hq] at hnear
  obtain ⟨hleast, hmost, hlow, hhigh⟩ :=
    spacing_bounds hquot hbound (floorLog2Ratio_eq hnum hden ▸ he)
  rw [abs_le] at hnear
  -- Rounding does not leave the range of the binade, as its two ends are whole numbers.
  have hqhigh : q ≤ 2 ^ 53 := by
    have : (q : ℚ) < (2 ^ 53 : Nat) + 1 := by push_cast; linarith [hnear.2]
    exact Nat.le_of_lt_succ (by exact_mod_cast this)
  have hqlow : e = -1074 ∨ 2 ^ 52 ≤ q := by
    refine hlow.imp_right fun hlow => ?_
    have hspacings : (2 : ℚ) ^ 52 ≤ num / den / 2 ^ e := by
      rw [le_div_iff₀ (by positivity)]
      linarith
    have : ((2 ^ 52 : Nat) : ℚ) < q + 1 := by push_cast; linarith [hnear.1]
    exact Nat.le_of_lt_succ (by exact_mod_cast this)
  have hrank : nearestRank num den = (e + 1074).toNat * binade + q := by
    rw [nearestRank, if_neg hnum.ne']
    simp only [he, hq]
    exact Nat.min_eq_left (rank_lt_infinityRank hmost hqhigh).le
  refine ⟨e, q, hlow, ?_, ?_, abs_le.mpr hnear⟩
  · rw [hrank]
    exact rank_lt_infinityRank hmost hqhigh
  · rw [hrank, magnitude_of_spacings hleast hqlow hqhigh]

/-- Zero over anything is rounded to zero. -/
@[simp] theorem nearestRank_zero (den : Nat) : nearestRank 0 den = 0 := rfl

/-- The least of the doubles is zero. -/
@[simp] theorem magnitude_zero : magnitude 0 = 0 := by
  rw [magnitude, significand, if_pos (by decide), Nat.cast_zero, zero_mul]

/-- The nearest double differs from a quotient by one part in `2 ^ 53`, or by less than the
least double. -/
theorem abs_magnitude_nearestRank_sub_le (num : Nat) {den : Nat} (hden : 0 < den)
    (hbound : (num : ℚ) / den < 2 ^ 100) :
    nearestRank num den < infinityRank ∧
      |magnitude (nearestRank num den) - num / den| ≤ num / den / 2 ^ 53 + 1 / 2 ^ 100 := by
  obtain rfl | hnum := Nat.eq_zero_or_pos num
  · rw [nearestRank_zero, magnitude_zero]
    exact ⟨by decide, by norm_num⟩
  obtain ⟨e, q, hlow, hfinite, hvalue, hnear⟩ := exists_spacings hnum hden hbound
  have hunit : (0 : ℚ) < 2 ^ e := by positivity
  have hquot : (0 : ℚ) < (num : ℚ) / den := by positivity
  refine ⟨hfinite, ?_⟩
  calc |magnitude (nearestRank num den) - num / den|
      = |((q : ℚ) - num / den / 2 ^ e) * 2 ^ e| := by
        rw [hvalue, sub_mul, div_mul_cancel₀ _ hunit.ne']
    _ = |(q : ℚ) - num / den / 2 ^ e| * 2 ^ e := by rw [abs_mul, abs_of_pos hunit]
    _ ≤ 1 / 2 * 2 ^ e := by gcongr
    _ ≤ num / den / 2 ^ 53 + 1 / 2 ^ 100 := by
        -- Half a spacing is less than the least double, or small beside the number.
        obtain rfl | hlow := hlow
        · have hleast : (1 / 2 : ℚ) * 2 ^ (-1074 : Int) ≤ 1 / 2 ^ 100 := by
            have hpow : (2 : ℚ) ^ (-1074 : Int) ≤ 2 ^ (-100 : Int) :=
              zpow_le_zpow_right₀ (by norm_num) (by decide)
            have hleast : (2 : ℚ) ^ (-100 : Int) = 1 / 2 ^ 100 := by
              rw [zpow_neg, one_div]
              norm_cast
            rw [hleast] at hpow
            have : (0 : ℚ) < 1 / 2 ^ 100 := by positivity
            linarith
          have : (0 : ℚ) ≤ (num : ℚ) / den / 2 ^ 53 := by positivity
          linarith
        · have hpart : (1 / 2 : ℚ) * 2 ^ e ≤ num / den / 2 ^ 53 := by
            rw [le_div_iff₀ (by positivity)]
            linarith
          have : (0 : ℚ) ≤ 1 / 2 ^ 100 := by positivity
          linarith

/-- A whole number below `2 ^ 53` is a double. -/
theorem magnitude_nearestRank_of_nat {n : Nat} (hn : n < 2 ^ 53) :
    nearestRank n 1 < infinityRank ∧ magnitude (nearestRank n 1) = n := by
  obtain rfl | hpos := Nat.eq_zero_or_pos n
  · exact ⟨by decide, by rw [nearestRank_zero, magnitude_zero, Nat.cast_zero]⟩
  have hsmall : (n : ℚ) < 2 ^ 53 := by exact_mod_cast hn
  obtain ⟨e, q, hlow, hfinite, hvalue, hnear⟩ := exists_spacings hpos Nat.one_pos
    (by rw [Nat.cast_one, div_one]; exact hsmall.trans (by norm_num))
  rw [Nat.cast_one, div_one] at hlow hnear
  refine ⟨hfinite, ?_⟩
  -- The spacing is at most one, so the number is a whole number of spacings.
  have he : e ≤ 0 := by
    obtain rfl | hlow := hlow
    · decide
    · by_contra hpos
      have hunit : (2 : ℚ) ^ (1 : Int) ≤ 2 ^ e := zpow_le_zpow_right₀ (by norm_num) (by omega)
      rw [zpow_one] at hunit
      linarith
  obtain ⟨k, hk⟩ : ∃ k : Nat, e = -(k : Int) := ⟨(-e).toNat, by omega⟩
  have hunit : (2 : ℚ) ^ e = (2 ^ k)⁻¹ := by rw [hk, zpow_neg, zpow_natCast]
  -- Two whole numbers within a half of each other are equal.
  have hcount : q = n * 2 ^ k := by
    rw [hunit, div_inv_eq_mul, abs_le] at hnear
    have hbelow : (q : ℚ) < ((n * 2 ^ k + 1 : Nat) : ℚ) := by push_cast; linarith [hnear.2]
    have habove : ((n * 2 ^ k : Nat) : ℚ) < ((q + 1 : Nat) : ℚ) := by push_cast; linarith [hnear.1]
    have hbelow' : q < n * 2 ^ k + 1 := by exact_mod_cast hbelow
    have habove' : n * 2 ^ k < q + 1 := by exact_mod_cast habove
    omega
  rw [hvalue, hcount, hunit]
  push_cast
  rw [mul_assoc, mul_inv_cancel₀ (by positivity), mul_one]

/-! ### Values -/

/-- A number with the sign that a double has. -/
def signed (negative : Bool) (x : ℚ) : ℚ := if negative then -x else x

/-- The number that a finite double is. -/
def value (x : Binary64) : ℚ := signed x.negative (magnitude x.rank)

/-- Two numbers with one sign differ by their difference, with this sign. -/
theorem signed_sub (negative : Bool) (x y : ℚ) :
    signed negative x - signed negative y = signed negative (x - y) := by
  cases negative
  · rfl
  · simp only [signed, if_true]
    ring

/-- The size of a number does not depend on its sign. -/
theorem abs_signed (negative : Bool) (x : ℚ) : |signed negative x| = |x| := by
  cases negative
  · rfl
  · exact abs_neg x

/-- A whole number is its size with its sign. -/
theorem signed_natAbs (i : Int) : signed (i < 0) i.natAbs = i := by
  rw [signed, Nat.cast_natAbs]
  split
  · rename_i h
    rw [abs_of_neg (by simpa using h)]
    push_cast
    ring
  · rename_i h
    rw [abs_of_nonneg (by simpa using h)]

/-- A double made from a ratio is finite, and as close to it as its magnitude is. -/
theorem abs_value_ofRatio_sub_le (negative : Bool) (num : Nat) {den : Nat} (hden : 0 < den)
    (hbound : (num : ℚ) / den < 2 ^ 100) :
    (ofRatio negative num den).rank < infinityRank ∧
      |value (ofRatio negative num den) - signed negative (num / den)|
        ≤ num / den / 2 ^ 53 + 1 / 2 ^ 100 := by
  obtain ⟨hfinite, hnear⟩ := abs_magnitude_nearestRank_sub_le num hden hbound
  refine ⟨hfinite, ?_⟩
  rw [value, ofRatio, signed_sub, abs_signed]
  exact hnear

/-- A whole number below `2 ^ 53` is exact, however the ratio is given. -/
theorem value_ofRatio_of_int {i : Int} (hi : i.natAbs < 2 ^ 53) {num den : Nat} (hden : 0 < den)
    (hratio : num = i.natAbs * den) :
    (ofRatio (i < 0) num den).rank < infinityRank ∧ value (ofRatio (i < 0) num den) = i := by
  have hrank : nearestRank num den = nearestRank i.natAbs 1 :=
    nearestRank_congr hden Nat.one_pos (by rw [hratio, Nat.mul_one])
  obtain ⟨hfinite, hvalue⟩ := magnitude_nearestRank_of_nat hi
  rw [ofRatio, hrank]
  refine ⟨hfinite, ?_⟩
  rw [value, hvalue]
  exact signed_natAbs i

/-! ### Arithmetic -/

section
variable {x y : Binary64} (hx : x.rank < infinityRank) (hy : y.rank < infinityRank)

/-- A finite double is a number. -/
theorem isNaN_of_finite {z : Binary64} (h : z.rank < infinityRank) : z.isNaN = false := by
  rw [isNaN, decide_eq_false_iff_not]
  omega

/-- And it is not infinite. -/
theorem isInfinite_of_finite {z : Binary64} (h : z.rank < infinityRank) : z.isInfinite = false := by
  rw [isInfinite, beq_eq_false_iff_ne]
  omega

/-- The numerator of the ratio that a finite double is, with its sign. -/
def numerator (z : Binary64) : Int :=
  if z.negative then -((ratio z.rank).1 : Int) else ((ratio z.rank).1 : Int)

/-- The numerator of a double, with its sign, over the denominator is its value. -/
theorem numerator_div (z : Binary64) : (numerator z : ℚ) / (ratio z.rank).2 = value z := by
  rw [value, ← ratio_eq, signed, numerator]
  split
  · push_cast
    rw [neg_div]
  · push_cast
    rfl

include hx hy

/-- The sum of two finite doubles is zero, or the double nearest to the ratio that it is. -/
theorem exists_add_eq : ∃ (sum : Int) (den : Nat), 0 < den ∧ (sum : ℚ) / den = value x + value y ∧
    add x y = if sum = 0 then ⟨x.negative && y.negative, 0⟩
      else ofRatio (sum < 0) sum.natAbs den := by
  have hb := ratio_pos x.rank
  have hd := ratio_pos y.rank
  refine ⟨numerator x * (ratio y.rank).2 + numerator y * (ratio x.rank).2,
    (ratio x.rank).2 * (ratio y.rank).2, Nat.mul_pos hb hd, ?_, ?_⟩
  · have hb' : ((ratio x.rank).2 : ℚ) ≠ 0 := by exact_mod_cast hb.ne'
    have hd' : ((ratio y.rank).2 : ℚ) ≠ 0 := by exact_mod_cast hd.ne'
    rw [← numerator_div x, ← numerator_div y, div_add_div _ _ hb' hd']
    push_cast
    congr 1
    ring
  -- The sum is taken over the product of the denominators, each numerator with its own sign.
  · have hterm : ∀ (negative : Bool) (n d : Nat),
        (if negative then -((n * d : Nat) : Int) else ((n * d : Nat) : Int))
          = (if negative then -(n : Int) else (n : Int)) * d := by
      intro negative n d
      cases negative <;> push_cast <;> simp
    rw [add, isNaN_of_finite hx, isNaN_of_finite hy, isInfinite_of_finite hx,
      isInfinite_of_finite hy]
    simp only [Bool.or_self, Bool.false_eq_true, if_false, hterm]
    rfl

/-- A sum of doubles is rounded once. -/
theorem abs_value_add_sub_le (hbound : |value x + value y| < 2 ^ 100) :
    (add x y).rank < infinityRank ∧
      |value (add x y) - (value x + value y)| ≤ |value x + value y| / 2 ^ 53 + 1 / 2 ^ 100 := by
  obtain ⟨sum, den, hden, hsum, hadd⟩ := exists_add_eq hx hy
  have hden' : (0 : ℚ) < den := by exact_mod_cast hden
  have habs : |value x + value y| = sum.natAbs / den := by
    rw [← hsum, abs_div, abs_of_pos hden', Nat.cast_natAbs, Int.cast_abs]
  rw [hadd]
  -- A sum of zero is exact, whatever sign it gets.
  split
  · rename_i hzero
    rw [← hsum, hzero, value, magnitude_zero]
    refine ⟨show 0 < infinityRank by decide, ?_⟩
    simp [signed]
  · rw [habs] at hbound ⊢
    obtain ⟨hfinite, hnear⟩ := abs_value_ofRatio_sub_le (sum < 0) sum.natAbs hden hbound
    refine ⟨hfinite, ?_⟩
    rw [← hsum]
    convert hnear using 3
    rw [← signed_natAbs sum, signed, signed]
    split
    · rw [neg_div]
    · rfl

/-- A sum of doubles that is a whole number below `2 ^ 53` is exact. -/
theorem value_add_of_int {i : Int} (hi : i.natAbs < 2 ^ 53) (hsum : value x + value y = i) :
    (add x y).rank < infinityRank ∧ value (add x y) = i := by
  obtain ⟨sum, den, hden, hratio, hadd⟩ := exists_add_eq hx hy
  have hden' : (den : ℚ) ≠ 0 := by exact_mod_cast hden.ne'
  have hmul : sum = i * den := by
    rw [hsum, div_eq_iff hden'] at hratio
    exact_mod_cast hratio
  rw [hadd]
  split
  · rename_i hzero
    have hi : i = 0 := by
      rw [hzero] at hmul
      exact (mul_eq_zero.mp hmul.symm).resolve_right (by exact_mod_cast hden.ne')
    rw [hi, value, magnitude_zero]
    refine ⟨show 0 < infinityRank by decide, ?_⟩
    simp [signed]
  -- The sign of the ratio is that of the number that it is.
  · have hsign : decide (sum < 0) = decide (i < 0) := by
      have hden' : (0 : Int) < den := by exact_mod_cast hden
      rw [decide_eq_decide, hmul, mul_neg_iff]
      omega
    rw [hsign]
    exact value_ofRatio_of_int hi hden (by rw [hmul, Int.natAbs_mul, Int.natAbs_natCast])

/-- A product of doubles is rounded once. -/
theorem abs_value_mul_sub_le (hbound : |value x * value y| < 2 ^ 100) :
    (mul x y).rank < infinityRank ∧
      |value (mul x y) - value x * value y| ≤ |value x * value y| / 2 ^ 53 + 1 / 2 ^ 100 := by
  have hb := ratio_pos x.rank
  have hd := ratio_pos y.rank
  have hmul : mul x y = ofRatio (x.negative != y.negative)
      ((ratio x.rank).1 * (ratio y.rank).1) ((ratio x.rank).2 * (ratio y.rank).2) := by
    rw [mul, isNaN_of_finite hx, isNaN_of_finite hy, isInfinite_of_finite hx,
      isInfinite_of_finite hy]
    rfl
  have hprod : (((ratio x.rank).1 * (ratio y.rank).1 : Nat) : ℚ)
      / ((ratio x.rank).2 * (ratio y.rank).2 : Nat) = magnitude x.rank * magnitude y.rank := by
    rw [← ratio_eq x.rank, ← ratio_eq y.rank]
    push_cast
    rw [mul_div_mul_comm]
  have hvalue : value x * value y
      = signed (x.negative != y.negative) (magnitude x.rank * magnitude y.rank) := by
    rw [value, value]
    cases x.negative <;> cases y.negative <;> simp [signed]
  have hnonneg : 0 ≤ magnitude x.rank * magnitude y.rank := by
    rw [← hprod]
    positivity
  rw [hvalue, abs_signed, abs_of_nonneg hnonneg] at hbound ⊢
  rw [hmul]
  rw [← hprod] at hbound ⊢
  exact abs_value_ofRatio_sub_le _ _ (Nat.mul_pos hb hd) hbound

end

end Binary64

end RouteDocs
