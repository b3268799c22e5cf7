import SqlFragments.Proofs.Json.Scaling
import SqlFragments.Proofs.Number.Steps

/-!
# Errors of scaling by powers of ten

The number of a numeral is found by several roundings, of the whole number of its digits, of
the power of ten, and of each product or quotient.  All but the last one move the quantity
that is rounded last, but not by more than two roundings can.  This needs care only where a
power beyond the greatest one is divided by in two steps: the greatest power is so close to
its decimal, and so far above a power of two, that of the two large errors one is smaller.

Main results:

- `Numeral.within_firstQuotient`: what is left after division by the greatest power of ten.
- `Numeral.isNearlyRead_readFloat`: the quantity that is rounded last when a numeral is read.
-/

namespace SqlFragments.Json.Numeral

open Number

attribute [local instance (high)] instPowNat

/-! ## Whole numbers and powers of ten -/

/-- A whole number of seventeen digits is rounded to a finite number. -/
theorem isFinite_ofNat {m : ℕ} (hm : m ≤ 10 ^ 17) :
    (Binary.ofNat m : Binary64).isFinite = true := by
  have hcode := Binary.code_ofNat_mono Format.double_fractionBits_pos hm
  exact Binary.isFinite_iff.mpr (hcode.trans_lt (by decide +kernel))

/-- The powers of ten up to the greatest one used are finite. -/
theorem isFinite_power {k : ℕ} (hk : k ≤ maxPower) : (power k).isFinite = true :=
  Binary.isFinite_iff.mpr ((code_power_mono hk).trans_lt (by decide +kernel))

/-- A power of ten that fits the significand, apart from its factors of two, is a magnitude. -/
theorem units_power {k : ℕ} (hk : k ≤ 22) :
    (power k).units = 10 ^ k * Format.double.one := by
  have hall : ∀ k < 23, (power k).units = 10 ^ k * Format.double.one := by decide +kernel
  exact hall k (Nat.lt_succ_of_le hk)

/-- A power of ten has units, also after rounding. -/
theorem units_power_pos (k : ℕ) : 0 < (power k).units :=
  (Nat.two_pow_pos _).trans_le (one_le_units_power k)

/-- A power of ten up to the greatest one used is one rounding away from the exact power. -/
theorem within_power {k : ℕ} (hk : k ≤ maxPower) :
    Within (1 + Format.double.roundoff) (10 ^ k * Format.double.one) (power k).units := by
  have h := Binary.within_ofNat Format.double_fractionBits_pos (ten_pow_pos k) (isFinite_power hk)
  rwa [Nat.cast_pow, Nat.cast_ofNat] at h

/-! ## The greatest power of ten -/

/-- The greatest power of ten is close to its decimal. -/
theorem within_greatestPower :
    Within (1 + 99 / 1000 * Format.double.roundoff) (10 ^ maxPower * Format.double.one)
      (power maxPower).units := by
  have hnat : 10 ^ maxPower * Format.double.one * (1000 * 2 ^ 53) ≤
        (power maxPower).units * (1000 * 2 ^ 53 + 99) ∧
      (power maxPower).units * (1000 * 2 ^ 53) ≤
        10 ^ maxPower * Format.double.one * (1000 * 2 ^ 53 + 99) := by
    decide +kernel
  have hfactor : 1 + 99 / 1000 * Format.double.roundoff =
      (1000 * 2 ^ 53 + 99) / (1000 * 2 ^ 53) := by
    norm_num [Format.roundoff, Format.double]
  rw [hfactor]
  -- The exponent is made a variable, so that no tactic computes the powers.
  generalize maxPower = k at hnat ⊢
  exact .of_mul_le (by norm_num) (by exact_mod_cast hnat.1) (by exact_mod_cast hnat.2)

/-- The greatest power of ten is above a power of two by one part in nine, nearly. -/
theorem greatestPower_bounds :
    (11125 * (Format.double.one * Format.double.one) : ℚ) ≤
        10000 * (2 ^ 51 * (power maxPower).units) ∧
      (10000 * (2 ^ 51 * (power maxPower).units) : ℚ) ≤
        11126 * (Format.double.one * Format.double.one) := by
  have hnat : 11125 * (Format.double.one * Format.double.one) ≤
        10000 * (2 ^ 51 * (power maxPower).units) ∧
      10000 * (2 ^ 51 * (power maxPower).units) ≤
        11126 * (Format.double.one * Format.double.one) := by
    decide +kernel
  generalize (power maxPower).units = rounded at hnat ⊢
  generalize Format.double.one = one at hnat ⊢
  exact ⟨by exact_mod_cast hnat.1, by exact_mod_cast hnat.2⟩

/-! ## Division by the greatest power -/

/-- The roundoff of doubles is at most a ten-thousandth. -/
theorem roundoff_le : Format.double.roundoff ≤ 1 / 10000 := by
  norm_num [Format.roundoff, Format.double]

section

variable {m : ℕ} (hm : m ≤ 10 ^ 17)

include hm

/-- What is left after division is finite. -/
theorem isFinite_div_greatestPower :
    ((Binary.ofNat m).div (power maxPower)).isFinite = true := by
  have hfinite := isFinite_ofNat hm
  have hcode := (code_div_power_le hfinite maxPower).1
  exact Binary.isFinite_iff.mpr (hcode.trans_lt (Binary.isFinite_iff.mp hfinite))

/-- What is left after division is not subnormal, if it is not too small a part of the power. -/
theorem within_div_greatestPower
    (hlow : (3 * Format.double.one : ℚ) ≤ (Binary.ofNat m : Binary64).units) :
    Within (1 + Format.double.roundoff)
      ((Binary.ofNat m : Binary64).units * Format.double.one / (power maxPower).units)
      ((Binary.ofNat m).div (power maxPower)).units := by
  have hpos : (0 : ℚ) < (power maxPower).units := by exact_mod_cast units_power_pos maxPower
  have hone := Format.double.one_pos
  have hquotient := Binary.isNearest_div Format.double_fractionBits_pos
    (Binary.ofNat m : Binary64) (units_power_pos maxPower)
  refine hquotient.within (Binary.isFinite_iff.mp (isFinite_div_greatestPower hm)) ?_
  have hpower := greatestPower_bounds.2
  have hlow := mul_le_mul_of_nonneg_right hlow hone.le
  generalize (power maxPower).units = power at hpos hpower ⊢
  generalize Format.double.one = one at *
  rw [le_div_iff₀ hpos]
  change (2 : ℚ) ^ 52 * power ≤ _
  linarith

/-- Digits well above a power of two are rounded by less than others. -/
theorem within_ofNat_of_le {e : ℕ} (he : m < 2 ^ (e + 1)) (hlow : 11124 * 2 ^ e ≤ 10000 * m) :
    Within (1 + 9 / 10 * Format.double.roundoff) (m * Format.double.one)
      (Binary.ofNat m : Binary64).units := by
  have herror := Binary.abs_units_ofNat_sub_le Format.double_fractionBits_pos he (isFinite_ofNat hm)
  have hone := Format.double.one_pos
  have hpos := Format.double.roundoff_pos
  have hsmall := roundoff_le
  have hlowq : (11124 * 2 ^ e : ℚ) ≤ 10000 * m := by exact_mod_cast hlow
  generalize Format.double.roundoff = u at *
  generalize (Format.double.one : ℚ) = one at *
  generalize (Binary.ofNat m : Binary64).units = units at *
  have hpow : (0 : ℚ) < 2 ^ e := by positivity
  generalize (2 : ℚ) ^ e = pow at *
  have hunit : 0 < pow * one := mul_pos hpow hone
  have hscaled := mul_le_mul_of_nonneg_right hlowq hone.le
  have hpart := mul_le_mul_of_nonneg_left hsmall hunit.le
  obtain ⟨hbelow, -⟩ := abs_le.mp herror
  have hproportion : |units - m * one| ≤ 1112 / 1000 * (pow * one) * (9 / 10 * u) :=
    herror.trans (by nlinarith [mul_pos hunit hpos])
  refine .of_abs_sub_le hproportion (by positivity) ?_ ?_
  · linarith
  · linarith

section

variable {e : ℕ} (hbase : 2 ^ (e + 2) ≤ m) (he : m < 2 ^ (e + 3))
  (hhigh : 10000 * m ≤ 11124 * 2 ^ (e + 2))

include hbase he hhigh

/-- Digits that are not well above a power of two are not rounded far from it. -/
theorem units_ofNat_bounds :
    (9999 * (4 * 2 ^ e * Format.double.one) : ℚ) ≤ 10000 * (Binary.ofNat m : Binary64).units ∧
      (10000 * (Binary.ofNat m : Binary64).units : ℚ) ≤
        11125 * (4 * 2 ^ e * Format.double.one) := by
  have hone := Format.double.one_pos
  have herror := abs_le.mp (Binary.abs_units_ofNat_sub_le Format.double_fractionBits_pos he
    (isFinite_ofNat hm))
  have hbaseq : (2 ^ (e + 2) : ℚ) ≤ m := by exact_mod_cast hbase
  have hhighq : (10000 * m : ℚ) ≤ 11124 * 2 ^ (e + 2) := by exact_mod_cast hhigh
  have hunit : (0 : ℚ) < 2 ^ (e + 2) * Format.double.one := mul_pos (by positivity) hone
  have hpart := mul_le_mul_of_nonneg_left roundoff_le hunit.le
  have hbaseUnits := mul_le_mul_of_nonneg_right hbaseq hone.le
  have hhighUnits := mul_le_mul_of_nonneg_right hhighq hone.le
  have hfour : (4 * 2 ^ e * Format.double.one : ℚ) = 2 ^ (e + 2) * Format.double.one := by ring
  rw [hfour]
  constructor <;> linarith

/-- Such digits leave a quotient just below the next power of two. -/
theorem div_greatestPower_bounds :
    (895 / 1000 * (2 ^ 53 * 2 ^ e) : ℚ) ≤
        (Binary.ofNat m : Binary64).units * Format.double.one / (power maxPower).units ∧
      (Binary.ofNat m : Binary64).units * Format.double.one / (power maxPower).units ≤
        (2 ^ 53 * 2 ^ e : ℚ) := by
  have hone := Format.double.one_pos
  have hstep : (0 : ℚ) < 2 ^ e := by positivity
  have hpower : (0 : ℚ) < (power maxPower).units := by exact_mod_cast units_power_pos maxPower
  obtain ⟨hdigitsLow, hdigitsHigh⟩ := units_ofNat_bounds hm hbase he hhigh
  obtain ⟨hpowerLow, hpowerHigh⟩ := greatestPower_bounds
  have hlow := mul_le_mul_of_nonneg_right hdigitsLow hone.le
  have hhigh := mul_le_mul_of_nonneg_right hdigitsHigh hone.le
  have hpowerLow := mul_le_mul_of_nonneg_left hpowerLow hstep.le
  have hpowerHigh := mul_le_mul_of_nonneg_left hpowerHigh hstep.le
  rw [le_div_iff₀ hpower, div_le_iff₀ hpower]
  constructor <;> linarith

/-- A quotient just below a power of two is rounded by less than others. -/
theorem within_div_greatestPower_of_le :
    Within (1 + 6 / 10 * Format.double.roundoff)
      ((Binary.ofNat m : Binary64).units * Format.double.one / (power maxPower).units)
      ((Binary.ofNat m).div (power maxPower)).units := by
  obtain ⟨hlow, hnext⟩ := div_greatestPower_bounds hm hbase he hhigh
  have hstep : (0 : ℚ) < 2 ^ e := by positivity
  have herror : |(((Binary.ofNat m).div (power maxPower)).units : ℚ) -
      (Binary.ofNat m : Binary64).units * Format.double.one / (power maxPower).units| ≤
        2 ^ e / 2 := by
    have hsteps : (2 ^ 53 * 2 ^ e : ℚ) = 2 * 2 ^ Format.double.fractionBits * 2 ^ e := by
      change (2 ^ 53 * 2 ^ e : ℚ) = 2 * 2 ^ 52 * 2 ^ e
      ring
    have hnonneg : (0 : ℚ) ≤ 895 / 1000 * (2 ^ 53 * 2 ^ e) := by positivity
    exact (Binary.isNearest_div Format.double_fractionBits_pos (Binary.ofNat m)
      (units_power_pos maxPower)).abs_units_sub_le
        (Binary.isFinite_iff.mp (isFinite_div_greatestPower hm))
        (hnonneg.trans hlow) (hnext.trans_eq hsteps)
  have hroundoff : 2 ^ 53 * Format.double.roundoff = 1 := by
    norm_num [Format.roundoff, Format.double]
  have hbelow := (abs_le.mp herror).1
  have hproportion : (2 ^ e / 2 : ℚ) ≤
      89 / 100 * (2 ^ 53 * 2 ^ e) * (6 / 10 * Format.double.roundoff) :=
    calc (2 ^ e / 2 : ℚ) ≤ 89 / 100 * 2 ^ e * (6 / 10 * 1) := by linarith
      _ = 89 / 100 * (2 ^ 53 * 2 ^ e) * (6 / 10 * Format.double.roundoff) := by
          rw [← hroundoff]
          ring
  refine .of_abs_sub_le (herror.trans hproportion) ?_ ?_ ?_
  · have hpos := Format.double.roundoff_pos
    positivity
  · linarith
  · linarith

end

end

/-- The errors of the digits, of the power and of the quotient, one after the other. -/
theorem within_quotient_of_errors {m : ℕ} {a b : ℚ} (ha : 1 ≤ a) (hb : 1 ≤ b)
    (hdigits : Within a (m * Format.double.one) (Binary.ofNat m : Binary64).units)
    (hquotient : Within b
      ((Binary.ofNat m : Binary64).units * Format.double.one / (power maxPower).units)
      ((Binary.ofNat m).div (power maxPower)).units)
    (hab : a * (1 + 99 / 1000 * Format.double.roundoff) * b ≤
      (1 + Format.double.roundoff) * (1 + Format.double.roundoff)) :
    Within ((1 + Format.double.roundoff) * (1 + Format.double.roundoff))
      (m * Format.double.one / 10 ^ maxPower) ((Binary.ofNat m).div (power maxPower)).units := by
  have hone := Format.double.one_pos
  have hpos := Format.double.roundoff_pos
  have hdecimal : (0 : ℚ) < 10 ^ maxPower := by positivity
  have hpower : (0 : ℚ) < (power maxPower).units := by exact_mod_cast units_power_pos maxPower
  have hunits : (0 : ℚ) ≤ (Binary.ofNat m : Binary64).units := Nat.cast_nonneg _
  have hfactor : 0 ≤ 1 + 99 / 1000 * Format.double.roundoff := by positivity
  have hfirst := hdigits.div_right hdecimal.le
  have hsecond := (Within.refl (mul_nonneg hunits hone.le) le_rfl).div within_greatestPower
    (mul_nonneg hunits hone.le) (mul_nonneg hunits hone.le) (mul_pos hdecimal hone) hpower
  rw [one_mul, mul_div_mul_right _ _ hone.ne'] at hsecond
  refine ((hfirst.trans hsecond (by linarith) hfactor).trans hquotient
    (mul_nonneg (by linarith) hfactor) (by linarith)).mono ?_ (Nat.cast_nonneg _) hab
  exact div_nonneg (mul_nonneg (Nat.cast_nonneg _) hone.le) hdecimal.le

/-- The least numbers leave subnormal quotients, which are near enough. -/
theorem within_firstQuotient_of_le_two {m : ℕ} (hpos : 0 < m) (hm : m ≤ 2) :
    Within ((1 + Format.double.roundoff) * (1 + Format.double.roundoff))
      (m * Format.double.one / 10 ^ maxPower) ((Binary.ofNat m).div (power maxPower)).units := by
  have hall : ∀ m < 3, 0 < m →
      m * Format.double.one * (2 ^ 53 * 2 ^ 53) ≤
        ((Binary.ofNat m).div (power maxPower)).units * 10 ^ maxPower *
          ((2 ^ 53 + 1) * (2 ^ 53 + 1)) ∧
      ((Binary.ofNat m).div (power maxPower)).units * 10 ^ maxPower * (2 ^ 53 * 2 ^ 53) ≤
        m * Format.double.one * ((2 ^ 53 + 1) * (2 ^ 53 + 1)) := by
    decide +kernel
  have hnat := hall m (by omega) hpos
  have hfactor : (1 + Format.double.roundoff) * (1 + Format.double.roundoff) =
      ((2 ^ 53 + 1) * (2 ^ 53 + 1)) / (2 ^ 53 * 2 ^ 53) := by
    norm_num [Format.roundoff, Format.double]
  rw [hfactor]
  generalize ((Binary.ofNat m).div (power maxPower)).units = rounded at hnat ⊢
  generalize maxPower = k at hnat ⊢
  generalize Format.double.one = one at hnat ⊢
  have hdecimal : (0 : ℚ) < 10 ^ k := by positivity
  have hproduct : Within ((2 ^ 53 + 1) * (2 ^ 53 + 1) / (2 ^ 53 * 2 ^ 53)) (m * one)
      (rounded * 10 ^ k) :=
    .of_mul_le (by norm_num) (by exact_mod_cast hnat.1) (by exact_mod_cast hnat.2)
  have hquotient := hproduct.div_right hdecimal.le
  rwa [mul_div_cancel_right₀ _ hdecimal.ne'] at hquotient

/-- Division by the greatest power of ten is within two roundings, for all numbers of seventeen
digits. -/
theorem within_firstQuotient {m : ℕ} (hpos : 0 < m) (hm : m ≤ 10 ^ 17) :
    Within ((1 + Format.double.roundoff) * (1 + Format.double.roundoff))
      (m * Format.double.one / 10 ^ maxPower) ((Binary.ofNat m).div (power maxPower)).units := by
  have hdigits := Binary.within_ofNat Format.double_fractionBits_pos hpos (isFinite_ofNat hm)
  have hone := Format.double.one_pos
  have hroundoff := Format.double.roundoff_pos
  rcases Nat.lt_or_ge 2 m with hthree | htwo
  case inr => exact within_firstQuotient_of_le_two hpos htwo
  rcases Nat.lt_or_ge (2 ^ 53) m with hlong | hexact
  case inr =>
    have hunits : ((Binary.ofNat m : Binary64).units : ℚ) = m * Format.double.one := by
      rw [Binary.units_ofNat Format.double_fractionBits_pos hexact (isFinite_ofNat hm)]
      exact Nat.cast_mul _ _
    have hlow : (3 * Format.double.one : ℚ) ≤ (Binary.ofNat m : Binary64).units := by
      rw [hunits]
      exact mul_le_mul_of_nonneg_right (by exact_mod_cast hthree) hone.le
    refine within_quotient_of_errors le_rfl (by linarith) ?_ (within_div_greatestPower hm hlow) ?_
    · rw [hunits]
      exact .refl (mul_nonneg (Nat.cast_nonneg _) hone.le) le_rfl
    · norm_num [Format.roundoff, Format.double]
  have hlog : 53 ≤ m.log2 := (Nat.le_log2 (by omega)).mpr hlong.le
  obtain ⟨e, he⟩ : ∃ e, m.log2 = e + 2 := ⟨m.log2 - 2, by omega⟩
  have hbase : 2 ^ (e + 2) ≤ m := he ▸ Nat.log2_self_le (by omega)
  have hnext : m < 2 ^ (e + 2 + 1) := he ▸ Nat.lt_log2_self
  rcases Nat.le_total (11124 * 2 ^ (e + 2)) (10000 * m) with habove | hbelow
  · have hlow : (3 * Format.double.one : ℚ) ≤ (Binary.ofNat m : Binary64).units := by
      have hsix : (6 * Format.double.one : ℚ) ≤ m * Format.double.one :=
        mul_le_mul_of_nonneg_right (by exact_mod_cast (by omega : 6 ≤ m)) hone.le
      have hunits : (0 : ℚ) ≤ (Binary.ofNat m : Binary64).units := Nat.cast_nonneg _
      have htwice := mul_le_mul_of_nonneg_left roundoff_le hunits
      linarith [hdigits.le]
    refine within_quotient_of_errors (by linarith) (by linarith)
      (within_ofNat_of_le hm hnext habove) (within_div_greatestPower hm hlow) ?_
    norm_num [Format.roundoff, Format.double]
  · refine within_quotient_of_errors (by linarith) (by linarith) hdigits
      (within_div_greatestPower_of_le hm hbase hnext hbelow) ?_
    norm_num [Format.roundoff, Format.double]

/-! ## The quantity that is rounded last -/

/-- A code is the nearest to a quantity that differs from an exact one by at most two roundings,
and by none if the digits and the power of ten are small. -/
def IsNearlyRead (m : ℕ) (scale : ℤ) (code : ℕ) : Prop :=
  ∃ r : ℚ, Format.double.IsNearest r code ∧
    Within ((1 + Format.double.roundoff) * (1 + Format.double.roundoff))
      (m * 10 ^ scale * Format.double.one) r ∧
    (m ≤ 2 ^ 53 → scale.natAbs ≤ 22 → r = m * 10 ^ scale * Format.double.one)

/-- Integers up to `2 ^ 53` are doubles. -/
theorem units_ofNat_eq {m : ℕ} (hm : m ≤ 2 ^ 53) :
    ((Binary.ofNat m : Binary64).units : ℚ) = m * Format.double.one := by
  rw [Binary.units_ofNat Format.double_fractionBits_pos hm (isFinite_ofNat (hm.trans (by decide)))]
  exact Nat.cast_mul _ _

/-- Powers of ten up to `10 ^ 22` are doubles. -/
theorem units_power_eq {k : ℕ} (hk : k ≤ 22) :
    ((power k).units : ℚ) = 10 ^ k * Format.double.one := by
  rw [units_power hk, Nat.cast_mul, Nat.cast_pow, Nat.cast_ofNat]

section

variable {m k : ℕ} (hpos : 0 < m) (hm : m ≤ 10 ^ 17)

include hpos hm

/-- Digits times a power of ten are close to the decimal they stand for. -/
theorem isNearlyRead_mul (hk : k ≤ maxPower) :
    IsNearlyRead m k ((Binary.ofNat m).mul (power k)).code := by
  have hone := Format.double.one_pos
  have hdigits := Binary.within_ofNat Format.double_fractionBits_pos hpos (isFinite_ofNat hm)
  have hproduct : (m * Format.double.one * (10 ^ k * Format.double.one) / Format.double.one : ℚ) =
      m * 10 ^ (k : ℤ) * Format.double.one := by
    rw [zpow_natCast]
    field_simp
  refine ⟨_, Binary.isNearest_mul Format.double_fractionBits_pos _ _, ?near, ?exact⟩
  case near =>
    have hdecimal : (0 : ℚ) ≤ 10 ^ k * Format.double.one := mul_nonneg (by positivity) hone.le
    have hquantity : (0 : ℚ) ≤ m * Format.double.one := mul_nonneg (Nat.cast_nonneg _) hone.le
    rw [← hproduct]
    exact (hdigits.mul (within_power hk) hquantity (Nat.cast_nonneg _) hdecimal
      (Nat.cast_nonneg _)).div_right hone.le
  case exact =>
    intro hexact hsmall
    rw [units_ofNat_eq hexact, units_power_eq (k := k) (by omega), hproduct]

/-- Digits divided by a power of ten are close to the decimal they stand for. -/
theorem isNearlyRead_div (hk : k ≤ maxPower) :
    IsNearlyRead m (-k) ((Binary.ofNat m).div (power k)).code := by
  have hone := Format.double.one_pos
  have hdigits := Binary.within_ofNat Format.double_fractionBits_pos hpos (isFinite_ofNat hm)
  have hquotient : (m * Format.double.one * Format.double.one / (10 ^ k * Format.double.one) : ℚ) =
      m * 10 ^ (-k : ℤ) * Format.double.one := by
    rw [zpow_neg, zpow_natCast]
    field_simp
  refine ⟨_, Binary.isNearest_div Format.double_fractionBits_pos _ (units_power_pos k),
    ?near, ?exact⟩
  case near =>
    have hdecimal : (0 : ℚ) < 10 ^ k * Format.double.one := mul_pos (by positivity) hone
    have hpower : (0 : ℚ) < (power k).units := by exact_mod_cast units_power_pos k
    have hquantity : (0 : ℚ) ≤ m * Format.double.one := mul_nonneg (Nat.cast_nonneg _) hone.le
    rw [← hquotient]
    exact (hdigits.mul_right hone.le).div (within_power hk) (mul_nonneg hquantity hone.le)
      (mul_nonneg (Nat.cast_nonneg _) hone.le) hdecimal hpower
  case exact =>
    intro hexact hsmall
    rw [units_ofNat_eq hexact, units_power_eq (by omega), hquotient]

/-- Digits divided by two powers, the second of them exact, are close to the decimal they
stand for. -/
theorem isNearlyRead_div_div (hk : k ≤ 22) :
    IsNearlyRead m (-(maxPower + k : ℕ))
      (((Binary.ofNat m).div (power maxPower)).div (power k)).code := by
  have hone := Format.double.one_pos
  have hquotient : (m * Format.double.one / 10 ^ maxPower / 10 ^ k : ℚ) =
      m * 10 ^ (-(maxPower + k : ℕ) : ℤ) * Format.double.one := by
    rw [zpow_neg, zpow_natCast, pow_add]
    field_simp
  refine ⟨_, Binary.isNearest_div Format.double_fractionBits_pos _ (units_power_pos k),
    ?near, ?exact⟩
  case near =>
    rw [units_power_eq hk, mul_div_mul_right _ _ hone.ne', ← hquotient]
    exact (within_firstQuotient hpos hm).div_right (by positivity)
  case exact =>
    intro _ hsmall
    have hgreat : 22 < maxPower := by decide
    omega

end

/-- A positive whole number is not rounded to zero. -/
theorem isZero_ofNat {m : ℕ} (hpos : 0 < m) : (Binary.ofNat m : Binary64).isZero = false := by
  have hcode := Binary.code_ofNat_mono Format.double_fractionBits_pos (Nat.succ_le_of_lt hpos)
  have hone : 0 < (Binary.ofNat 1 : Binary64).code := by decide +kernel
  exact beq_false_of_ne (hone.trans_le hcode).ne'

/-- A product that is given is that of the number and one power. -/
theorem scaleUp_eq_some {x y : Binary64} {k : ℕ} (hx : x.isZero = false)
    (h : scaleUp x k = some y) : k ≤ maxPower ∧ y = x.mul (power k) := by
  unfold scaleUp at h
  dsimp only at h
  split_ifs at h with hk hinfinite hzero
  · exact ⟨hk, (Option.some.inj h).symm⟩
  · rw [hx] at hzero
    cases hzero

/-- Scaling down by at most the greatest power used is one division. -/
theorem scaleDown_of_le {x : Binary64} {k : ℕ} (hk : k ≤ maxPower) :
    scaleDown x k = x.div (power k) := by
  rw [scaleDown, if_pos hk]

/-- Up to twice the greatest power, two divisions are enough. -/
theorem scaleDown_add {x : Binary64} {k : ℕ} (hx : x.isZero = false) (hpos : 0 < k)
    (hk : k ≤ maxPower) :
    scaleDown x (maxPower + k) = (x.div (power maxPower)).div (power k) := by
  rw [scaleDown, if_neg (by omega), hx, if_neg (by decide), Nat.add_sub_cancel_left,
    scaleDown_of_le hk]

/-- A numeral of at most seventeen digits is read nearly, if its power of ten is not far below
those of shortest decimals. -/
theorem isNearlyRead_readFloat {n : Numeral} {y : Binary64} (hpos : 0 < n.significand)
    (hdigits : n.significand ≤ 10 ^ 17) (hlow : -330 ≤ n.scale) (hread : n.readFloat = some y) :
    IsNearlyRead n.significand n.scale y.code := by
  have hzero := isZero_ofNat hpos
  rw [readFloat_eq (hdigits.trans_lt (by decide))] at hread
  obtain ⟨x, hx, rfl⟩ := Option.map_eq_some_iff.mp hread
  have hcode : (if n.negative then x.neg else x).code = x.code := by split <;> rfl
  rw [hcode]
  split_ifs at hx with hsign
  · obtain ⟨k, hk⟩ := Int.eq_ofNat_of_zero_le hsign
    rw [hk, Int.toNat_natCast] at hx
    obtain ⟨hmax, rfl⟩ := scaleUp_eq_some hzero hx
    rw [hk]
    exact isNearlyRead_mul hpos hdigits hmax
  · obtain rfl := Option.some.inj hx
    obtain ⟨k, hk⟩ : ∃ k : ℕ, n.scale = -k := ⟨(-n.scale).toNat, by omega⟩
    rw [hk, neg_neg, Int.toNat_natCast]
    rcases Nat.lt_or_ge maxPower k with hgreat | hsmall
    · obtain ⟨rest, rfl⟩ := Nat.exists_eq_add_of_lt hgreat
      have hrest : rest + 1 ≤ 22 := by
        simp only [maxPower] at hk
        omega
      rw [Nat.add_assoc, scaleDown_add hzero (Nat.succ_pos rest) (hrest.trans (by decide))]
      exact isNearlyRead_div_div hpos hdigits hrest
    · rw [scaleDown_of_le hsmall]
      exact isNearlyRead_div hpos hdigits hsmall

end SqlFragments.Json.Numeral
