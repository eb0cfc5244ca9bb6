import Mathlib.Algebra.Order.Field.Power
import Mathlib.Data.Int.Log
import Mathlib.Data.Nat.Cast.Order.Field
import Mathlib.Data.Rat.Floor
import Mathlib.Tactic.FieldSimp
import Mathlib.Tactic.Linarith
import Mathlib.Tactic.NormNum
import Mathlib.Tactic.Positivity
import Mathlib.Tactic.Ring
import RouteDocs.Number.Shortest

/-!
# `RouteDocs.Proofs.Shortest`: the shortest decimal reads back

A finite double is written with the fewest digits that still denote it. The search for them
tries up to seventeen digits. `shortest_readsBackAs` says that it does not fail: the decimal
that it ends with rounds to the double it was made from.

The rounding is done on ratios of whole numbers. What it gives depends on the quotient only
(`nearestRank_congr`), and a quotient is rounded to a double if it is closer to it than half
of the distance to the next (`nearestRank_of_close`). A grid of seventeen digits is that fine.
-/

set_option autoImplicit false

namespace RouteDocs

namespace Number

/-- A quotient within a half of a whole number is rounded to it. -/
theorem roundDiv_eq_of_close {num den m : Nat} (hbelow : 2 * m * den < 2 * num + den)
    (habove : 2 * num < 2 * m * den + den) : roundDiv num den = m := by
  have hpos : 0 < den := by omega
  have hdiv : den * (num / den) + num % den = num := Nat.div_add_mod num den
  have hmod : num % den < den := Nat.mod_lt _ hpos
  simp only [roundDiv]
  generalize num / den = q at hdiv ⊢
  generalize num % den = r at hdiv hmod ⊢
  -- The whole number is the quotient rounded down, or the next one.
  have hle : q ≤ m := by
    by_contra hlt
    have := Nat.mul_le_mul_left den (show m + 1 ≤ q by omega)
    nlinarith
  have hge : m ≤ q + 1 := by
    by_contra hlt
    have := Nat.mul_le_mul_left den (show q + 2 ≤ m by omega)
    nlinarith
  obtain rfl | rfl : m = q ∨ m = q + 1 := by omega
  · rw [if_pos (by nlinarith)]
  · rw [if_neg (by nlinarith), if_pos (by nlinarith)]

/-- A quotient is rounded the same in lower terms. -/
theorem roundDiv_mul_left {k : Nat} (hk : 0 < k) (num den : Nat) :
    roundDiv (k * num) (k * den) = roundDiv num den := by
  have htwice : 2 * (k * num % (k * den)) = k * (2 * (num % den)) := by
    rw [Nat.mul_mod_mul_left]
    ring
  simp only [roundDiv, htwice, Nat.mul_div_mul_left _ _ hk, Nat.mul_lt_mul_left hk]

/-- The rounded quotient depends on the quotient only. -/
theorem roundDiv_congr {num den num' den' : Nat} (hden : 0 < den) (hden' : 0 < den')
    (h : num * den' = num' * den) : roundDiv num den = roundDiv num' den' := by
  rw [← roundDiv_mul_left hden' num den, ← roundDiv_mul_left hden num' den', mul_comm den' num, h,
    mul_comm num' den, mul_comm den' den]

/-! ### Powers with a whole exponent -/

/-- A power whose exponent is not negative is one with a natural exponent. -/
theorem zpow_of_nonneg (b : ℚ) {k : Int} (h : 0 ≤ k) : b ^ k = b ^ k.toNat := by
  rw [← zpow_natCast, Int.toNat_of_nonneg h]

/-- Any other power is the inverse of one. -/
theorem zpow_of_neg (b : ℚ) {k : Int} (h : ¬ 0 ≤ k) : b ^ k = (b ^ (-k).toNat)⁻¹ := by
  rw [← zpow_natCast, ← zpow_neg, Int.toNat_of_nonneg (by omega), neg_neg]

/-! ### The exponent of a quotient -/

/-- A positive number is at least the power of two of its length. -/
theorem two_zpow_log2_le {n : Nat} (h : 0 < n) : (2 : ℚ) ^ (n.log2 : Int) ≤ n := by
  rw [zpow_natCast]
  exact_mod_cast Nat.log2_self_le h.ne'

/-- A number is below the next power of two. -/
theorem lt_two_zpow_log2_succ (n : Nat) : (n : ℚ) < (2 : ℚ) ^ ((n.log2 : Int) + 1) := by
  have h : n < 2 ^ (n.log2 + 1) := Nat.lt_log2_self
  rw [← Nat.cast_succ, zpow_natCast]
  exact_mod_cast h

section
variable {num den : Nat}

/-- A quotient is compared with a power of two without a division. -/
theorem fits_iff_le_div (hden : 0 < den) (k : Int) :
    (if 0 ≤ k then den * Nat.pow 2 k.toNat ≤ num else den ≤ num * Nat.pow 2 (-k).toNat)
      ↔ (2 : ℚ) ^ k ≤ (num : ℚ) / den := by
  rw [le_div_iff₀ (by exact_mod_cast hden)]
  split
  · rename_i hk
    rw [zpow_of_nonneg 2 hk, mul_comm]
    norm_cast
  · rename_i hk
    rw [zpow_of_neg 2 hk, inv_mul_le_iff₀ (by positivity), mul_comm]
    norm_cast

/-- So a quotient is at least a power of two that the lengths of its parts give. -/
theorem two_zpow_le_div (hnum : 0 < num) (hden : 0 < den) :
    (2 : ℚ) ^ ((num.log2 : Int) - den.log2 - 1) ≤ (num : ℚ) / den := by
  rw [le_div_iff₀ (by exact_mod_cast hden)]
  calc (2 : ℚ) ^ ((num.log2 : Int) - den.log2 - 1) * den
      ≤ (2 : ℚ) ^ ((num.log2 : Int) - den.log2 - 1) * 2 ^ ((den.log2 : Int) + 1) := by
        gcongr
        exact (lt_two_zpow_log2_succ den).le
    _ = 2 ^ (num.log2 : Int) := by
        rw [← zpow_add₀ (by norm_num)]
        congr 1
        ring
    _ ≤ num := two_zpow_log2_le hnum

/-- And it is below one that is four times as large. -/
theorem div_lt_two_zpow (hden : 0 < den) :
    (num : ℚ) / den < (2 : ℚ) ^ ((num.log2 : Int) - den.log2 + 1) := by
  rw [div_lt_iff₀ (by exact_mod_cast hden)]
  calc (num : ℚ) < 2 ^ ((num.log2 : Int) + 1) := lt_two_zpow_log2_succ num
    _ = (2 : ℚ) ^ ((num.log2 : Int) - den.log2 + 1) * 2 ^ (den.log2 : Int) := by
        rw [← zpow_add₀ (by norm_num)]
        congr 1
        ring
    _ ≤ 2 ^ ((num.log2 : Int) - den.log2 + 1) * den := by
        gcongr
        exact two_zpow_log2_le hden

/-- The exponent that is found is the logarithm of the quotient, rounded down. -/
theorem floorLog2Ratio_eq (hnum : 0 < num) (hden : 0 < den) :
    floorLog2Ratio num den = Int.log 2 ((num : ℚ) / den) := by
  have hquot : (0 : ℚ) < (num : ℚ) / den := by positivity
  have hle_log (k : Int) : k ≤ Int.log 2 ((num : ℚ) / den) ↔ (2 : ℚ) ^ k ≤ (num : ℚ) / den := by
    rw [← Int.zpow_le_iff_le_log (by decide) hquot]
    norm_cast
  -- The guess from the two lengths is the logarithm or one more.
  have hguess : (num.log2 : Int) - den.log2 - 1 ≤ Int.log 2 ((num : ℚ) / den) :=
    (hle_log _).mpr (two_zpow_le_div hnum hden)
  have hguess' : Int.log 2 ((num : ℚ) / den) < (num.log2 : Int) - den.log2 + 1 := by
    rw [← not_le, hle_log, not_le]
    exact div_lt_two_zpow hden
  simp only [floorLog2Ratio]
  generalize (num.log2 : Int) - den.log2 = guess at hguess hguess' ⊢
  have hfit := (fits_iff_le_div hden guess).trans (hle_log guess).symm
  by_cases h : guess ≤ Int.log 2 ((num : ℚ) / den)
  · rw [if_pos (by simpa using hfit.mpr h)]
    omega
  · rw [if_neg (by simpa using mt hfit.mp h)]
    omega

end

end Number

namespace Binary64

open Number

/-! ### The nearest double -/

/-- The nearest double depends on the quotient only. -/
theorem nearestRank_congr {num den num' den' : Nat} (hden : 0 < den) (hden' : 0 < den')
    (h : num * den' = num' * den) : nearestRank num den = nearestRank num' den' := by
  by_cases hnum : num = 0
  · have hnum' : num' = 0 := by simpa [hnum, hden.ne'] using h
    rw [hnum, hnum', nearestRank, nearestRank, if_pos rfl, if_pos rfl]
  · have hnum' : num' ≠ 0 := by
      rintro rfl
      simp [hnum, hden'.ne'] at h
    -- The exponent is the logarithm of the quotient, so it is the same for both.
    have hlog : floorLog2Ratio num den = floorLog2Ratio num' den' := by
      rw [floorLog2Ratio_eq (by omega) hden, floorLog2Ratio_eq (by omega) hden']
      congr 1
      rw [div_eq_div_iff (by positivity) (by positivity)]
      exact_mod_cast h
    rw [nearestRank, nearestRank, if_neg hnum, if_neg hnum', hlog]
    simp only
    generalize max (floorLog2Ratio num' den' - 52) (-1074) = e
    congr 2
    split
    · apply roundDiv_congr (Nat.mul_pos hden (Nat.two_pow_pos _))
        (Nat.mul_pos hden' (Nat.two_pow_pos _))
      rw [← mul_assoc, h, mul_assoc]
    · apply roundDiv_congr hden hden'
      rw [mul_right_comm, h, mul_right_comm]

/-- The spacing at a quotient of fewer than `2 ^ 53` spacings, and of `2 ^ 52` or more unless it is
the least spacing. -/
theorem max_floorLog2Ratio_eq {num den : Nat} (hnum : 0 < num) (hden : 0 < den) {e : Int}
    (he : -1074 ≤ e) (hlow : e = -1074 ∨ 2 ^ 52 ≤ (num : ℚ) / den / 2 ^ e)
    (hhigh : (num : ℚ) / den / 2 ^ e < 2 ^ 53) :
    max (floorLog2Ratio num den - 52) (-1074) = e := by
  have hquot : (0 : ℚ) < (num : ℚ) / den := by positivity
  have hunit : (0 : ℚ) < 2 ^ e := by positivity
  rw [floorLog2Ratio_eq hnum hden]
  have hlt : Int.log 2 ((num : ℚ) / den) < e + 53 := by
    rw [← Int.lt_zpow_iff_log_lt (by decide) hquot]
    rw [div_lt_iff₀ hunit] at hhigh
    rw [zpow_add₀ (by norm_num), mul_comm]
    exact_mod_cast hhigh
  rcases hlow with hleast | hlow
  · omega
  · have hge : e + 52 ≤ Int.log 2 ((num : ℚ) / den) := by
      rw [← Int.zpow_le_iff_le_log (by decide) hquot]
      rw [le_div_iff₀ hunit] at hlow
      rw [zpow_add₀ (by norm_num), mul_comm]
      exact_mod_cast hlow
    omega

/-- The number of spacings that a quotient is closest to. -/
theorem roundDiv_spacings {num den : Nat} (hden : 0 < den) {e : Int} {m : Nat}
    (hbelow : (m : ℚ) - 1 / 2 < (num : ℚ) / den / 2 ^ e)
    (habove : (num : ℚ) / den / 2 ^ e < m + 1 / 2) :
    (if 0 ≤ e then roundDiv num (den * Nat.pow 2 e.toNat)
      else roundDiv (num * Nat.pow 2 (-e).toNat) den) = m := by
  have hden' : (0 : ℚ) < den := by exact_mod_cast hden
  split
  · rename_i hnonneg
    rw [zpow_of_nonneg 2 hnonneg, div_div, lt_div_iff₀ (by positivity)] at hbelow
    rw [zpow_of_nonneg 2 hnonneg, div_div, div_lt_iff₀ (by positivity)] at habove
    apply roundDiv_eq_of_close
    · have : (2 * m * (den * 2 ^ e.toNat) : ℚ) < 2 * num + den * 2 ^ e.toNat := by linarith
      exact_mod_cast this
    · have : (2 * num : ℚ) < 2 * m * (den * 2 ^ e.toNat) + den * 2 ^ e.toNat := by linarith
      exact_mod_cast this
  · rename_i hneg
    rw [zpow_of_neg 2 hneg, div_inv_eq_mul, div_mul_eq_mul_div, lt_div_iff₀ hden'] at hbelow
    rw [zpow_of_neg 2 hneg, div_inv_eq_mul, div_mul_eq_mul_div, div_lt_iff₀ hden'] at habove
    apply roundDiv_eq_of_close
    · have : (2 * m * den : ℚ) < 2 * (num * 2 ^ (-e).toNat) + den := by linarith
      exact_mod_cast this
    · have : (2 * (num * 2 ^ (-e).toNat) : ℚ) < 2 * m * den + den := by linarith
      exact_mod_cast this

/-- The nearest double of a quotient that lies between `2 ^ 52` and `2 ^ 53` spacings, or below
that at the least spacing, from the number of spacings it is closest to. -/
theorem nearestRank_eq {num den : Nat} (hnum : 0 < num) (hden : 0 < den) {e : Int} {m : Nat}
    (he : -1074 ≤ e) (hlow : e = -1074 ∨ 2 ^ 52 ≤ (num : ℚ) / den / 2 ^ e)
    (hhigh : (num : ℚ) / den / 2 ^ e < 2 ^ 53) (hbelow : (m : ℚ) - 1 / 2 < (num : ℚ) / den / 2 ^ e)
    (habove : (num : ℚ) / den / 2 ^ e < m + 1 / 2) :
    nearestRank num den = min ((e + 1074).toNat * binade + m) infinityRank := by
  rw [nearestRank, if_neg hnum.ne']
  simp only [max_floorLog2Ratio_eq hnum hden he hlow hhigh,
    roundDiv_spacings hden hbelow habove]

/-- The value of a finite magnitude. -/
def magnitude (rank : Nat) : ℚ := significand rank * 2 ^ exponent rank

/-- No double is finer than the smallest one. -/
theorem exponent_ge (rank : Nat) : -1074 ≤ exponent rank := by
  rw [exponent]
  split
  · omega
  · rename_i h
    have : 1 ≤ rank / binade := Nat.div_pos (by omega) (by decide)
    omega

/-- A double other than zero has a positive significand. -/
theorem significand_pos {rank : Nat} (h : 0 < rank) : 0 < significand rank := by
  rw [significand]
  split
  · exact h
  · exact Nat.add_pos_right _ (by decide)

/-- The significand has fifty-three bits. -/
theorem significand_lt (rank : Nat) : significand rank < 2 ^ 53 := by
  have hbinade : binade = 2 ^ 52 := rfl
  rw [significand]
  split
  · omega
  · have := Nat.mod_lt rank (show 0 < binade by decide)
    omega

/-- Above the least spacing the significand has its full length. -/
theorem le_significand {rank : Nat} (h : exponent rank ≠ -1074) : 2 ^ 52 ≤ significand rank := by
  rw [exponent] at h
  rw [significand]
  split at h
  · exact absurd rfl h
  · rename_i hge
    rw [if_neg hge]
    exact Nat.le_add_left _ _

/-- A rank counts the spacings of its binade and the binades below. -/
theorem rank_eq (rank : Nat) :
    (exponent rank + 1074).toNat * binade + significand rank = rank := by
  rw [exponent, significand]
  split
  · simp
  · rename_i h
    have hpos : 1 ≤ rank / binade := Nat.div_pos (by omega) (by decide)
    have hcount : ((rank / binade : Nat) - 1075 + 1074 : Int).toNat + 1 = rank / binade := by omega
    have hdiv := Nat.div_add_mod rank binade
    rw [← hcount] at hdiv
    linarith

/-- The least double of a binade, counted in the spacings of the binade below. -/
theorem rank_eq_of_significand {rank : Nat} (hexp : -1074 < exponent rank)
    (hsig : significand rank = 2 ^ 52) :
    (exponent rank - 1 + 1074).toNat * binade + 2 ^ 53 = rank := by
  have hrank := rank_eq rank
  have hcount : (exponent rank + 1074).toNat = (exponent rank - 1 + 1074).toNat + 1 := by omega
  have hsum : 2 ^ 53 = binade + 2 ^ 52 := rfl
  rw [hsig, hcount, Nat.succ_mul, Nat.add_assoc] at hrank
  rw [hsum, hrank]

/-- A quotient that differs from a double by less than one part in twice `10 ^ 16` is rounded
to it. -/
theorem nearestRank_of_close {rank num den : Nat} (hpos : 0 < rank) (hfin : rank < infinityRank)
    (hden : 0 < den)
    (hclose : |(num : ℚ) / den - magnitude rank| * (2 * 10 ^ 16) ≤ magnitude rank) :
    nearestRank num den = rank := by
  have hunit : (0 : ℚ) < 2 ^ exponent rank := by positivity
  have hsig : (1 : ℚ) ≤ significand rank := by exact_mod_cast significand_pos hpos
  have hmax : (significand rank : ℚ) + 1 ≤ 2 ^ 53 := by exact_mod_cast significand_lt rank
  -- Everything is counted in spacings of the double's binade.
  obtain ⟨y, hy⟩ : ∃ y : ℚ, (num : ℚ) / den / 2 ^ exponent rank = y := ⟨_, rfl⟩
  have hscaled : |y - significand rank| ≤ significand rank / (2 * 10 ^ 16) := by
    have hdiff : (num : ℚ) / den - magnitude rank = (y - significand rank) * 2 ^ exponent rank := by
      rw [sub_mul, ← hy, div_mul_cancel₀ _ hunit.ne', magnitude]
    rw [hdiff, abs_mul, abs_of_pos hunit, magnitude, mul_right_comm,
      mul_le_mul_iff_of_pos_right hunit] at hclose
    rwa [le_div_iff₀ (by norm_num)]
  obtain ⟨hbelow, habove⟩ := abs_le.mp hscaled
  have hnum : 0 < num := by
    by_contra hzero
    obtain rfl : num = 0 := by omega
    simp only [Nat.cast_zero, zero_div] at hy
    linarith
  by_cases hlow : exponent rank = -1074 ∨ 2 ^ 52 ≤ y
  · have hstep : nearestRank num den = _ :=
      nearestRank_eq (m := significand rank) hnum hden (exponent_ge rank) (by rwa [hy])
        (by rw [hy]; linarith) (by rw [hy]; linarith) (by rw [hy]; linarith)
    rw [hstep, rank_eq, min_eq_left hfin.le]
  · -- Below a power of two the spacing is half as wide, and so is the error.
    obtain ⟨hnormal, hlow⟩ := not_or.mp hlow
    have hsig52 : significand rank = 2 ^ 52 := by
      by_contra hne
      have hlt : 2 ^ 52 < significand rank :=
        Nat.lt_of_le_of_ne (le_significand hnormal) (Ne.symm hne)
      have hgt : (2 : ℚ) ^ 52 + 1 ≤ significand rank := by exact_mod_cast hlt
      linarith
    have hexp : -1074 < exponent rank := lt_of_le_of_ne (exponent_ge rank) (Ne.symm hnormal)
    have hhalf : (num : ℚ) / den / 2 ^ (exponent rank - 1) = 2 * y := by
      rw [zpow_sub_one₀ (by norm_num), ← hy]
      field_simp
    have hsigq : (significand rank : ℚ) = 2 ^ 52 := by exact_mod_cast hsig52
    rw [hsigq] at hbelow habove
    have hstep : nearestRank num den = _ :=
      nearestRank_eq (m := 2 ^ 53) hnum hden (show -1074 ≤ exponent rank - 1 by omega)
        (.inr (by rw [hhalf]; linarith)) (by rw [hhalf]; linarith)
        (by rw [hhalf]; push_cast; linarith) (by rw [hhalf]; push_cast; linarith)
    rw [hstep, rank_eq_of_significand hexp hsig52, min_eq_left hfin.le]

/-! ### Decimals -/

/-- The value of a decimal number. -/
def Decimal.value (d : Decimal) : ℚ := d.digits * 10 ^ d.exponent

/-- The denominator of a decimal is positive. -/
theorem Decimal.ratio_pos (d : Decimal) : 0 < d.ratio.2 := by
  rw [ratio]
  split
  · exact Nat.one_pos
  · exact Nat.pow_pos (by norm_num)

/-- A decimal is its numerator over its denominator. -/
theorem Decimal.ratio_eq (d : Decimal) : (d.ratio.1 : ℚ) / d.ratio.2 = d.value := by
  rw [ratio, value]
  split
  · rename_i h
    rw [zpow_of_nonneg 10 h]
    simp
  · rename_i h
    rw [zpow_of_neg 10 h]
    simp [div_eq_mul_inv]

/-- The denominator of a double is positive. -/
theorem ratio_pos (rank : Nat) : 0 < (ratio rank).2 := by
  simp only [ratio]
  split
  · exact Nat.one_pos
  · exact Nat.two_pow_pos _

/-- A double is its numerator over its denominator. -/
theorem ratio_eq (rank : Nat) : ((ratio rank).1 : ℚ) / (ratio rank).2 = magnitude rank := by
  simp only [ratio, magnitude]
  split
  · rename_i h
    rw [zpow_of_nonneg 2 h]
    simp
  · rename_i h
    rw [zpow_of_neg 2 h]
    simp [div_eq_mul_inv]

/-- Decimals of one value round to one double. -/
theorem Decimal.readsBackAs_congr {rank : Nat} {d d' : Decimal} (h : d.value = d'.value) :
    d.readsBackAs rank = d'.readsBackAs rank := by
  have hcross : d.ratio.1 * d'.ratio.2 = d'.ratio.1 * d.ratio.2 := by
    have hpos : (0 : ℚ) < d.ratio.2 := by exact_mod_cast d.ratio_pos
    have hpos' : (0 : ℚ) < d'.ratio.2 := by exact_mod_cast d'.ratio_pos
    rw [← d.ratio_eq, ← d'.ratio_eq, div_eq_div_iff hpos.ne' hpos'.ne'] at h
    exact_mod_cast h
  rw [readsBackAs, readsBackAs, nearestRank_congr d.ratio_pos d'.ratio_pos hcross]

/-- Zeros at the end of the digits count for nothing. -/
theorem Decimal.value_trimZeros (fuel : Nat) (d : Decimal) :
    (d.trimZeros fuel).value = d.value := by
  induction fuel generalizing d with
  | zero => rfl
  | succ fuel ih =>
      rw [trimZeros]
      split
      · rename_i h
        have hmod : d.digits % 10 = 0 := by simp at h; exact h.1
        have hdigits : d.digits = 10 * (d.digits / 10) := by omega
        rw [ih, value, value]
        conv => rhs; rw [hdigits]
        rw [zpow_add_one₀ (by norm_num)]
        push_cast
        ring
      · rfl

/-! ### The first digit -/

/-- The width of a number is no more than that of its digits. -/
theorem pow_decimalWidth_le (fuel : Nat) {n : Nat} (h : 0 < n) :
    10 ^ decimalWidth fuel n ≤ 10 * n := by
  induction fuel generalizing n with
  | zero =>
      rw [decimalWidth]
      omega
  | succ fuel ih =>
      rw [decimalWidth, if_neg h.ne', pow_succ]
      by_cases hone : n / 10 = 0
      · have hzero : decimalWidth fuel 0 = 0 := by cases fuel <;> rfl
        rw [hone, hzero]
        omega
      · have := ih (Nat.pos_of_ne_zero hone)
        omega

/-- With fuel enough, it is no less either. -/
theorem lt_pow_decimalWidth {fuel n : Nat} (h : n < 10 ^ fuel) : n < 10 ^ decimalWidth fuel n := by
  induction fuel generalizing n with
  | zero => exact h
  | succ fuel ih =>
      rw [decimalWidth]
      split
      · omega
      · have := ih (n := n / 10) (by rw [pow_succ] at h; omega)
        rw [pow_succ]
        omega

/-- A quotient rounded up is no less than it. -/
theorem le_mul_roundedUp {num : Nat} (hnum : 0 < num) (den : Nat) :
    den ≤ num * ((den + num - 1) / num) := by
  have hdiv := Nat.div_add_mod (den + num - 1) num
  have hmod := Nat.mod_lt (den + num - 1) hnum
  omega

/-- The digits of a quotient rounded up fit in the width that is tried for its numerator. -/
theorem roundedUp_lt {num den : Nat} (hnum : 0 < num) (hden : 0 < den) :
    (den + num - 1) / num - 1 < 10 ^ (den.log2 + 2) := by
  have hlog : den < 2 ^ (den.log2 + 1) := Nat.lt_log2_self
  have hpow : 2 ^ (den.log2 + 1) ≤ 10 ^ (den.log2 + 2) :=
    (Nat.pow_le_pow_left (by norm_num) _).trans (Nat.pow_le_pow_right (by norm_num) (by omega))
  have hroundedUp : (den + num - 1) / num = (den - 1) / num + 1 := by
    rw [← Nat.add_div_right _ hnum]
    congr 1
    omega
  have hself : (den - 1) / num ≤ den - 1 := Nat.div_le_self _ _
  omega

/-- The power of ten of the first digit is at most the quotient. A quotient below one is measured
by its inverse, rounded up. -/
theorem zpow_floorLog10Ratio_le {num den : Nat} (hnum : 0 < num) (hden : 0 < den) :
    (10 : ℚ) ^ floorLog10Ratio num den ≤ (num : ℚ) / den := by
  have hnum' : (0 : ℚ) < num := by exact_mod_cast hnum
  have hden' : (0 : ℚ) < den := by exact_mod_cast hden
  rw [floorLog10Ratio]
  split
  · rename_i hle
    have hfloor := pow_decimalWidth_le (num.log2 + 1) (Nat.div_pos hle hden)
    generalize decimalWidth (num.log2 + 1) (num / den) = width at hfloor
    -- The whole part of the quotient has as many digits as its power of ten says.
    have hquot : ((10 ^ width : Nat) : ℚ) ≤ 10 * ((num : ℚ) / den) := by
      calc ((10 ^ width : Nat) : ℚ) ≤ ((10 * (num / den) : Nat) : ℚ) := by exact_mod_cast hfloor
        _ = 10 * ((num / den : Nat) : ℚ) := by push_cast; rfl
        _ ≤ 10 * ((num : ℚ) / den) := by
          gcongr
          exact Nat.cast_div_le
    rw [zpow_sub_one₀ (by norm_num), zpow_natCast]
    push_cast at hquot
    linarith
  · rename_i hlt
    simp only
    have hlast := lt_pow_decimalWidth (roundedUp_lt hnum hden)
    generalize decimalWidth (den.log2 + 2) ((den + num - 1) / num - 1) = width at hlast
    -- For the inverse the width is that of a bound from above.
    have hinverse : den ≤ num * 10 ^ width :=
      (le_mul_roundedUp hnum den).trans (Nat.mul_le_mul_left _ (by omega))
    rw [zero_sub, zpow_neg, zpow_natCast, inv_le_iff_one_le_mul₀ (by positivity), div_mul_eq_mul_div,
      le_div_iff₀ hden', one_mul]
    exact_mod_cast hinverse

/-! ### The search -/

/-- A quotient in units of `10 ^ exponent`, as numerator and denominator. -/
def gridRatio (num den : Nat) (exponent : Int) : Nat × Nat :=
  if 0 ≤ exponent then (num, den * Nat.pow 10 exponent.toNat)
  else (num * Nat.pow 10 (-exponent).toNat, den)

/-- The neighbours of a quotient on the grid of `10 ^ exponent`, the nearer first. -/
def neighbours (num den : Nat) (exponent : Int) : Decimal × Decimal :=
  let grid := gridRatio num den exponent
  let below := grid.1 / grid.2
  let twice := 2 * (grid.1 % grid.2)
  if twice < grid.2 || (twice == grid.2 && below % 2 == 0) then
    (⟨below, exponent⟩, ⟨below + 1, exponent⟩)
  else (⟨below + 1, exponent⟩, ⟨below, exponent⟩)

/-- A candidate is one of the two neighbours with so many digits, the nearer one if both are
read back. -/
theorem candidate?_eq (rank count num den : Nat) (top : Int) :
    candidate? rank count num den top =
      (let near := neighbours num den (top + 1 - count)
      if near.1.readsBackAs rank then some near.1
      else if near.2.readsBackAs rank then some near.2
      else none) := rfl

/-- A candidate is one that reads back. -/
theorem readsBackAs_of_candidate? {rank count num den : Nat} {top : Int} {d : Decimal}
    (h : candidate? rank count num den top = some d) : d.readsBackAs rank = true := by
  rw [candidate?_eq] at h
  generalize neighbours num den (top + 1 - count) = near at h
  simp only at h
  split at h
  · rename_i hfirst
    cases h
    exact hfirst
  · split at h
    · rename_i hsecond
      cases h
      exact hsecond
    · cases h

/-- The denominator on a grid is positive. -/
theorem gridRatio_pos {den : Nat} (hden : 0 < den) (num : Nat) (exponent : Int) :
    0 < (gridRatio num den exponent).2 := by
  rw [gridRatio]
  split
  · exact Nat.mul_pos hden (Nat.pow_pos (by norm_num))
  · exact hden

/-- A quotient in units of a grid is the quotient. -/
theorem gridRatio_eq (num den : Nat) (exponent : Int) :
    ((gridRatio num den exponent).1 : ℚ) / (gridRatio num den exponent).2 * 10 ^ exponent
      = (num : ℚ) / den := by
  rw [gridRatio]
  split
  · rename_i h
    rw [zpow_of_nonneg 10 h]
    push_cast [Nat.pow_eq]
    field_simp
  · rename_i h
    rw [zpow_of_neg 10 h]
    push_cast [Nat.pow_eq]
    field_simp

/-- The nearer neighbour is at most half a unit of the grid away. -/
theorem abs_neighbours_sub_le (num : Nat) {den : Nat} (hden : 0 < den) (exponent : Int) :
    |(neighbours num den exponent).1.value - (num : ℚ) / den| * 2 ≤ 10 ^ exponent := by
  have hunit : (0 : ℚ) < 10 ^ exponent := by positivity
  have hpos : (0 : ℚ) < (gridRatio num den exponent).2 := by
    exact_mod_cast gridRatio_pos hden num exponent
  rw [← gridRatio_eq num den exponent]
  simp only [neighbours]
  generalize gridRatio num den exponent = grid at hpos
  have hdiv : (grid.2 : ℚ) * (grid.1 / grid.2 : Nat) + (grid.1 % grid.2 : Nat) = grid.1 := by
    exact_mod_cast Nat.div_add_mod grid.1 grid.2
  have hquot : (grid.1 : ℚ) / grid.2 = (grid.1 / grid.2 : Nat) + (grid.1 % grid.2 : Nat) / grid.2 := by
    rw [← hdiv]
    field_simp
  have hmod : grid.1 % grid.2 < grid.2 := Nat.mod_lt _ (by exact_mod_cast hpos)
  generalize grid.1 / grid.2 = below at hquot ⊢
  generalize grid.1 % grid.2 = r at hquot hmod ⊢
  -- In units of the grid the quotient is the lower neighbour and a fraction of one.
  have hdist : ∀ n : Nat, |((n : ℚ) - (below + r / grid.2))| * 2 ≤ 1 →
      |Decimal.value ⟨n, exponent⟩ - (grid.1 : ℚ) / grid.2 * 10 ^ exponent| * 2 ≤ 10 ^ exponent := by
    intro n hn
    rw [hquot, Decimal.value, ← sub_mul, abs_mul, abs_of_pos hunit, mul_right_comm]
    exact mul_le_of_le_one_left hunit.le hn
  split
  · rename_i hnear
    apply hdist
    have htwice : 2 * r ≤ grid.2 := by
      simp only [Bool.or_eq_true, decide_eq_true_eq, Bool.and_eq_true, beq_iff_eq] at hnear
      omega
    have hfraction : (r : ℚ) / grid.2 * 2 ≤ 1 := by
      rw [div_mul_eq_mul_div, div_le_one hpos, mul_comm]
      exact_mod_cast htwice
    rw [sub_add_cancel_left, abs_neg, abs_of_nonneg (by positivity)]
    exact hfraction
  · rename_i hfar
    apply hdist
    have htwice : grid.2 ≤ 2 * r := by
      simp only [Bool.or_eq_true, decide_eq_true_eq, not_or, not_lt] at hfar
      exact hfar.1
    have hless : (r : ℚ) / grid.2 ≤ 1 := by
      rw [div_le_one hpos]
      exact_mod_cast hmod.le
    have hfraction : 1 ≤ (r : ℚ) / grid.2 * 2 := by
      rw [div_mul_eq_mul_div, one_le_div hpos, mul_comm]
      exact_mod_cast htwice
    rw [Nat.cast_succ, add_sub_add_left_eq_sub, abs_of_nonneg (by linarith)]
    linarith

/-- Seventeen digits suffice. -/
theorem exists_candidate?_seventeen {rank : Nat} (hpos : 0 < rank) (hfin : rank < infinityRank) :
    ∃ d, candidate? rank 17 (ratio rank).1 (ratio rank).2
      (floorLog10Ratio (ratio rank).1 (ratio rank).2) = some d := by
  have hden := ratio_pos rank
  have hvalue := ratio_eq rank
  have hmag : 0 < magnitude rank := by
    have hsig := significand_pos hpos
    rw [magnitude]
    positivity
  have hnum : 0 < (ratio rank).1 := by
    by_contra hzero
    rw [show (ratio rank).1 = 0 by omega] at hvalue
    simp only [Nat.cast_zero, zero_div] at hvalue
    linarith
  have htop := zpow_floorLog10Ratio_le hnum hden
  rw [hvalue] at htop
  generalize floorLog10Ratio (ratio rank).1 (ratio rank).2 = top at htop
  have hclose := abs_neighbours_sub_le (ratio rank).1 hden (top + 1 - (17 : Nat))
  rw [hvalue] at hclose
  -- The nearer neighbour is off by half a unit of the seventeenth digit at most.
  have hfirst : (neighbours (ratio rank).1 (ratio rank).2 (top + 1 - (17 : Nat))).1.readsBackAs rank
      = true := by
    rw [Decimal.readsBackAs, beq_iff_eq]
    apply nearestRank_of_close hpos hfin (Decimal.ratio_pos _)
    rw [Decimal.ratio_eq]
    have hscale : (10 : ℚ) ^ (top + 1 - (17 : Nat)) * 10 ^ 16 = 10 ^ top := by
      rw [← zpow_natCast, ← zpow_add₀ (by norm_num)]
      congr 1
      push_cast
      ring
    calc |(neighbours (ratio rank).1 (ratio rank).2 (top + 1 - (17 : Nat))).1.value - magnitude rank|
          * (2 * 10 ^ 16)
        = |(neighbours (ratio rank).1 (ratio rank).2 (top + 1 - (17 : Nat))).1.value - magnitude rank|
          * 2 * 10 ^ 16 := by rw [mul_assoc]
      _ ≤ 10 ^ (top + 1 - (17 : Nat)) * 10 ^ 16 := by gcongr
      _ ≤ magnitude rank := hscale ▸ htop
  rw [candidate?_eq]
  exact ⟨_, if_pos hfirst⟩

/-- The search ends with a decimal that reads back if one of the counts gives one. -/
theorem readsBackAs_go {rank num den : Nat} {top : Int} (fuel count : Nat)
    (h : ∃ k d, k < fuel ∧ candidate? rank (count + k) num den top = some d) :
    (shortest.go rank num den top fuel count).readsBackAs rank = true := by
  induction fuel generalizing count with
  | zero =>
      obtain ⟨k, d, hk, -⟩ := h
      omega
  | succ fuel ih =>
      rw [shortest.go]
      cases hfound : candidate? rank count num den top with
      | some d =>
          simp only
          -- The zeros at the end are left out, which does not change the value.
          rw [Decimal.readsBackAs_congr (d.value_trimZeros 20)]
          exact readsBackAs_of_candidate? hfound
      | none =>
          simp only
          apply ih
          obtain ⟨k, d, hk, hd⟩ := h
          cases k with
          | zero => rw [Nat.add_zero, hfound] at hd; cases hd
          | succ k => exact ⟨k, d, by omega, by rw [← hd]; congr 1; omega⟩

/-- The shortest decimal of a finite positive double rounds to that double. -/
theorem shortest_readsBackAs {rank : Nat} (hpos : 0 < rank) (hfin : rank < infinityRank) :
    (shortest rank).readsBackAs rank = true := by
  obtain ⟨d, hd⟩ := exists_candidate?_seventeen hpos hfin
  exact readsBackAs_go 17 1 ⟨16, d, by omega, hd⟩

end Binary64

end RouteDocs
