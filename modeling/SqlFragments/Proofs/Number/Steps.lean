import Mathlib.Algebra.Order.Archimedean.Basic
import SqlFragments.Proofs.Number.Conversion

/-!
# Errors of rounding

Rounding moves a quantity by at most half a step, and steps are small in proportion to the
magnitudes between them.  So roundings one after the other move a quantity by a factor that
is close to one, and such a factor is a few steps at most.

Main results:

- `Format.IsNearest.abs_units_sub_le`: rounding moves a quantity by at most half a step.
- `Format.IsNearest.within`: outside the subnormal range, this is a small proportion of it.
- `Format.IsNearest.le_add_of_le_mul`: quantities in proportion have codes that are near.
- `Binary.units_ofNat` and `Binary.within_ofNat`: how a whole number is rounded.
-/

namespace SqlFragments.Number

attribute [local instance (high)] instPowNat

/-! ## Quantities in proportion -/

/-- Neither of two quantities exceeds the other times a factor. -/
structure Within (factor q r : ℚ) : Prop where
  le : q ≤ r * factor
  ge : r ≤ q * factor

namespace Within

variable {s t q r v w : ℚ}

/-- A quantity is within every factor from one on of itself. -/
theorem refl (hq : 0 ≤ q) (hs : 1 ≤ s) : Within s q q :=
  ⟨le_mul_of_one_le_right hq hs, le_mul_of_one_le_right hq hs⟩

/-- A bound by one factor is a bound by every greater one. -/
theorem mono (h : Within s q r) (hq : 0 ≤ q) (hr : 0 ≤ r) (hst : s ≤ t) : Within t q r :=
  ⟨h.le.trans (mul_le_mul_of_nonneg_left hst hr), h.ge.trans (mul_le_mul_of_nonneg_left hst hq)⟩

/-- Factors multiply along a chain. -/
theorem trans (h : Within s q r) (h' : Within t r v) (hs : 0 ≤ s) (ht : 0 ≤ t) :
    Within (s * t) q v := by
  constructor
  · calc q ≤ r * s := h.le
      _ ≤ v * t * s := mul_le_mul_of_nonneg_right h'.le hs
      _ = v * (s * t) := by ring
  · calc v ≤ r * t := h'.ge
      _ ≤ q * s * t := mul_le_mul_of_nonneg_right h.ge ht
      _ = q * (s * t) := by ring

/-- Both quantities may be multiplied. -/
theorem mul (h : Within s q r) (h' : Within t v w) (hq : 0 ≤ q) (hr : 0 ≤ r) (hv : 0 ≤ v)
    (hw : 0 ≤ w) : Within (s * t) (q * v) (r * w) := by
  constructor
  · calc q * v ≤ r * s * (w * t) := mul_le_mul h.le h'.le hv (hq.trans h.le)
      _ = r * w * (s * t) := by ring
  · calc r * w ≤ q * s * (v * t) := mul_le_mul h.ge h'.ge hw (hr.trans h.ge)
      _ = q * v * (s * t) := by ring

/-- Both sides can be multiplied alike. -/
theorem mul_right (h : Within s q r) (hv : 0 ≤ v) : Within s (q * v) (r * v) := by
  constructor
  · rw [mul_right_comm]
    exact mul_le_mul_of_nonneg_right h.le hv
  · rw [mul_right_comm]
    exact mul_le_mul_of_nonneg_right h.ge hv

/-- Both sides can be divided alike. -/
theorem div_right (h : Within s q r) (hv : 0 ≤ v) : Within s (q / v) (r / v) := by
  rw [div_eq_mul_inv, div_eq_mul_inv]
  exact h.mul_right (inv_nonneg.mpr hv)

/-- Inverses are as close as what is inverted. -/
theorem inv (h : Within s q r) (hq : 0 < q) (hr : 0 < r) : Within s q⁻¹ r⁻¹ := by
  constructor
  · rw [inv_mul_eq_div, le_div_iff₀ hr, inv_mul_le_iff₀ hq]
    exact h.ge
  · rw [inv_mul_eq_div, le_div_iff₀ hq, inv_mul_le_iff₀ hr]
    exact h.le

/-- Both quantities may be divided. -/
theorem div (h : Within s q r) (h' : Within t v w) (hq : 0 ≤ q) (hr : 0 ≤ r) (hv : 0 < v)
    (hw : 0 < w) : Within (s * t) (q / v) (r / w) := by
  rw [div_eq_mul_inv, div_eq_mul_inv]
  exact h.mul (h'.inv hv hw) hq hr (inv_nonneg.mpr hv.le) (inv_nonneg.mpr hw.le)

/-- A factor that is a quotient may be multiplied out. -/
theorem of_mul_le {a b : ℚ} (hb : 0 < b) (hle : q * b ≤ r * a) (hge : r * b ≤ q * a) :
    Within (a / b) q r := by
  constructor
  · rw [mul_div_assoc', le_div_iff₀ hb]
    exact hle
  · rw [mul_div_assoc', le_div_iff₀ hb]
    exact hge

/-- A difference is in proportion to what neither of the quantities is below. -/
theorem of_abs_sub_le {low error : ℚ} (h : |r - q| ≤ low * error) (herror : 0 ≤ error)
    (hq : low ≤ q) (hr : low ≤ r) : Within (1 + error) q r := by
  obtain ⟨hbelow, habove⟩ := abs_le.mp h
  have hq := mul_le_mul_of_nonneg_right hq herror
  have hr := mul_le_mul_of_nonneg_right hr herror
  constructor <;> linarith

end Within

namespace Format

variable {f : Format}

/-! ## Steps -/

/-- Up to the end of a shift, no step is greater than the one of the shift. -/
theorem units_succ_le_add (f : Format) {shift code : ℕ}
    (h : code < (shift + 2) * 2 ^ f.fractionBits) :
    f.units (code + 1) ≤ f.units code + 2 ^ shift := by
  obtain ⟨other, m, rfl, hm, hfull⟩ := f.exists_steps code
  have hother : other ≤ shift := by
    by_contra hlt
    have hmul := Nat.mul_le_mul_right (2 ^ f.fractionBits) (Nat.lt_of_not_le hlt)
    rw [Nat.succ_mul] at hmul
    rw [Nat.add_mul] at h
    omega
  have hpow : 2 ^ other ≤ 2 ^ shift := Nat.pow_le_pow_right Nat.two_pos hother
  rw [Nat.add_assoc, f.units_mul_add (m := m + 1) (by omega) (by omega),
    f.units_mul_add hm.le hfull, Nat.succ_mul]
  omega

/-- Steps do not become smaller. -/
theorem two_mul_units_succ_le (f : Format) (code : ℕ) :
    2 * f.units (code + 1) ≤ f.units code + f.units (code + 1 + 1) := by
  obtain ⟨shift, m, rfl, hm, hfull⟩ := f.exists_steps code
  have hfirst : f.units (shift * 2 ^ f.fractionBits + m) = m * 2 ^ shift :=
    f.units_mul_add (by omega) (by omega)
  have hsecond : f.units (shift * 2 ^ f.fractionBits + (m + 1)) = (m + 1) * 2 ^ shift :=
    f.units_mul_add (by omega) (by omega)
  have hthird : (m + 2) * 2 ^ shift ≤ f.units (shift * 2 ^ f.fractionBits + (m + 1) + 1) := by
    rcases Nat.lt_or_ge (m + 1) (2 * 2 ^ f.fractionBits) with hinside | hend
    · exact (f.units_mul_add (m := m + 2) (by omega) (by omega)).ge
    · -- The next two steps are of different shifts.
      have hpos := Nat.two_pow_pos f.fractionBits
      have hcode : shift * 2 ^ f.fractionBits + (m + 1) + 1 =
          (shift + 1) * 2 ^ f.fractionBits + (2 ^ f.fractionBits + 1) := by
        rw [Nat.succ_mul]
        omega
      rw [hcode, f.units_mul_add (by omega) (.inr (by omega)), Nat.pow_succ', ← Nat.mul_assoc]
      exact Nat.mul_le_mul_right _ (by omega)
  rw [Nat.add_assoc _ m 1, hfirst, hsecond]
  linarith

/-- The step after a code is no smaller further on. -/
theorem units_succ_add_le (f : Format) {code other : ℕ} (h : code ≤ other) :
    f.units (code + 1) + f.units other ≤ f.units code + f.units (other + 1) := by
  induction other, h using Nat.le_induction with
  | base => exact (Nat.add_comm _ _).le
  | succ other _ ih =>
    have hnext := f.two_mul_units_succ_le other
    omega

/-- Middles that are some codes apart are at least as many steps apart. -/
theorem mul_step_le_middle_sub (f : Format) (code k : ℕ) :
    k * ((f.units (code + 1) : ℚ) - f.units code) ≤ f.middle (code + k) - f.middle code := by
  induction k with
  | zero => simp
  | succ k ih =>
    have hfirst : (f.units (code + 1) + f.units (code + k) : ℚ) ≤
        f.units code + f.units (code + k + 1) := by
      exact_mod_cast f.units_succ_add_le (Nat.le_add_right code k)
    have hsecond : (f.units (code + 1) + f.units (code + k + 1) : ℚ) ≤
        f.units code + f.units (code + k + 1 + 1) := by
      exact_mod_cast f.units_succ_add_le (Nat.le_add_right code (k + 1))
    rw [← Nat.add_assoc]
    unfold middle at ih ⊢
    push_cast
    linarith

/-! ## Errors -/

/-- Half a unit in the last place of the least significand. -/
def roundoff (f : Format) : ℚ := 1 / (2 * 2 ^ f.fractionBits)

/-- The roundoff of a format is positive. -/
theorem roundoff_pos (f : Format) : 0 < f.roundoff := by
  unfold roundoff
  positivity

namespace IsNearest

variable {q r : ℚ} {a b code other : ℕ}

/-- A quantity that is not below a magnitude is not rounded below it. -/
theorem units_le_of_le (h : f.IsNearest q code) (hfinite : code < f.infinity)
    (hle : f.units other ≤ q) : other ≤ code := by
  by_contra hlt
  have hmiddle := h.below hfinite
  have hstep : (f.units code : ℚ) < f.units (code + 1) := by
    exact_mod_cast f.units_strictMono code.lt_succ_self
  have hother : (f.units (code + 1) : ℚ) ≤ f.units other := by
    exact_mod_cast f.units_strictMono.monotone (by omega)
  unfold middle at hmiddle
  linarith

/-- A quantity that is not above a magnitude is not rounded above it. -/
theorem le_of_le_units (h : f.IsNearest q code) (hle : q ≤ f.units other) : code ≤ other := by
  by_contra hlt
  obtain ⟨below, rfl⟩ : ∃ below, code = below + 1 := ⟨code - 1, by omega⟩
  have hmiddle := h.above below rfl
  have hstep : (f.units below : ℚ) < f.units (below + 1) := by
    exact_mod_cast f.units_strictMono below.lt_succ_self
  have hother : (f.units other : ℚ) ≤ f.units below := by
    exact_mod_cast f.units_strictMono.monotone (by omega)
  unfold middle at hmiddle
  linarith

/-- Rounding moves a quantity by at most half a step of a shift, if the quantity is not beyond
the steps of the shift. -/
theorem abs_units_sub_le (h : f.IsNearest q code) (hfinite : code < f.infinity) (hq : 0 ≤ q)
    {shift : ℕ} (hle : q ≤ 2 * 2 ^ f.fractionBits * 2 ^ shift) :
    |(f.units code : ℚ) - q| ≤ 2 ^ shift / 2 := by
  have hend : f.units ((shift + 2) * 2 ^ f.fractionBits) = 2 * 2 ^ f.fractionBits * 2 ^ shift := by
    rw [Nat.add_mul]
    exact f.units_mul_add le_rfl (.inr (by omega))
  have hendq : (f.units ((shift + 2) * 2 ^ f.fractionBits) : ℚ) =
      2 * 2 ^ f.fractionBits * 2 ^ shift := by
    rw [hend]
    push_cast
    rfl
  have hcode := h.le_of_le_units (hle.trans_eq hendq.symm)
  have hpow : (0 : ℚ) < 2 ^ shift := by positivity
  rw [abs_le]
  constructor
  · rcases hcode.eq_or_lt with rfl | hlt
    · rw [hendq]
      linarith
    · have hmiddle := h.below hfinite
      have hstep : (f.units (code + 1) : ℚ) ≤ f.units code + 2 ^ shift := by
        exact_mod_cast f.units_succ_le_add hlt
      unfold middle at hmiddle
      linarith
  · rcases Nat.eq_zero_or_pos code with rfl | hpos
    · have hzero : f.units 0 = 0 := by simp [units]
      rw [hzero, Nat.cast_zero]
      linarith
    · obtain ⟨below, rfl⟩ : ∃ below, code = below + 1 := ⟨code - 1, by omega⟩
      have hmiddle := h.above below rfl
      have hstep : (f.units (below + 1) : ℚ) ≤ f.units below + 2 ^ shift := by
        exact_mod_cast f.units_succ_le_add (Nat.lt_of_succ_le hcode)
      unfold middle at hmiddle
      linarith

/-- Above the subnormal range, rounding moves a quantity by a small proportion of it. -/
theorem within (h : f.IsNearest q code) (hfinite : code < f.infinity)
    (hq : 2 ^ f.fractionBits ≤ q) : Within (1 + f.roundoff) q (f.units code) := by
  have hsize : (0 : ℚ) < 2 ^ f.fractionBits := by positivity
  obtain ⟨shift, hlow, hhigh⟩ :=
    exists_nat_pow_near ((one_le_div hsize).mpr hq) (one_lt_two (α := ℚ))
  rw [le_div_iff₀' hsize] at hlow
  rw [div_lt_iff₀' hsize, pow_succ', mul_left_comm, ← mul_assoc] at hhigh
  have herror := h.abs_units_sub_le hfinite (hsize.le.trans hq) hhigh.le
  have hfirst : (f.units (shift * 2 ^ f.fractionBits + 2 ^ f.fractionBits) : ℚ) =
      2 ^ f.fractionBits * 2 ^ shift := by
    rw [f.units_mul_add (by omega) (.inr le_rfl)]
    push_cast
    rfl
  have hcode := h.units_le_of_le hfinite (hfirst.trans_le hlow)
  have hunits : (2 ^ f.fractionBits * 2 ^ shift : ℚ) ≤ f.units code := by
    rw [← hfirst]
    exact_mod_cast f.units_strictMono.monotone hcode
  refine .of_abs_sub_le (herror.trans_eq ?_) f.roundoff_pos.le hlow hunits
  rw [roundoff]
  field_simp

/-- If one quantity does not exceed another by more than a factor, its code does not exceed
the other by more than some codes.  A number has at most as many steps in it as the significand
counts, and one half step less below the middle. -/
theorem le_add_of_le_mul (ha : f.IsNearest q a) (hb : f.IsNearest r b) (hfinite : a < f.infinity)
    {factor : ℚ} (hfactor : 1 ≤ factor) (hle : r ≤ q * factor) {k : ℕ}
    (hk : (factor - 1) * (2 * 2 ^ f.fractionBits - 1 / 2) < k) : b ≤ a + k := by
  by_contra hlt
  obtain ⟨below, rfl⟩ : ∃ below, b = below + 1 := ⟨b - 1, by omega⟩
  obtain ⟨step, hpos, hstep, hmagnitude⟩ := f.units_succ a
  have hstepq : (f.units (a + 1) : ℚ) = f.units a + step := by exact_mod_cast hstep
  have hposq : (0 : ℚ) < step := by exact_mod_cast hpos
  have hmagnitudeq : (f.units (a + 1) : ℚ) ≤ 2 * 2 ^ f.fractionBits * step := by
    exact_mod_cast hmagnitude
  have hapart := f.mul_step_le_middle_sub a k
  have hmono : f.middle (a + k) ≤ f.middle below := f.middle_strictMono.monotone (by omega)
  have hr := hb.above below rfl
  have hq := ha.below hfinite
  have hquantity : q ≤ (2 * 2 ^ f.fractionBits - 1 / 2) * step := by
    unfold middle at hq
    linarith
  have hdifference : r - q < k * step := by
    calc r - q ≤ (factor - 1) * q := by linarith
      _ ≤ (factor - 1) * ((2 * 2 ^ f.fractionBits - 1 / 2) * step) :=
          mul_le_mul_of_nonneg_left hquantity (by linarith)
      _ = (factor - 1) * (2 * 2 ^ f.fractionBits - 1 / 2) * step := by ring
      _ < k * step := mul_lt_mul_of_pos_right hk hposq
  rw [hstepq, add_sub_cancel_left] at hapart
  linarith

/-- Quantities whose proportion is that of two roundings have codes at most two apart. -/
theorem le_add_two (ha : f.IsNearest q a) (hb : f.IsNearest r b) (hfinite : a < f.infinity)
    (hle : r ≤ q * ((1 + f.roundoff) * (1 + f.roundoff))) : b ≤ a + 2 := by
  have hpos := f.roundoff_pos
  refine ha.le_add_of_le_mul hb hfinite (by nlinarith) hle ?_
  have hsize : f.roundoff * (2 * 2 ^ f.fractionBits) = 1 := by
    rw [roundoff]
    field_simp
  generalize f.roundoff = error at hpos hsize ⊢
  generalize (2 * 2 ^ f.fractionBits : ℚ) = size at hsize ⊢
  -- The square of the error is less than what half a step less leaves over.
  have hproduct : ((1 + error) * (1 + error) - 1) * (size - 1 / 2) = 2 - error ^ 2 / 2 := by
    calc ((1 + error) * (1 + error) - 1) * (size - 1 / 2)
        = (2 + error) * (error * size - error / 2) := by ring
      _ = 2 - error ^ 2 / 2 := by rw [hsize]; ring
  rw [hproduct, Nat.cast_ofNat]
  have hsquare : 0 < error ^ 2 := by positivity
  linarith

end IsNearest

end Format

/-! ## Rounded operations -/

namespace Binary

variable {f : Format} {x y : Binary f}

section

variable (hbits : 0 < f.fractionBits)

include hbits

/-- An integer is rounded to the nearest code. -/
theorem isNearest_ofNat (n : ℕ) : f.IsNearest (n * f.one) (ofNat n : Binary f).code := by
  have h := f.isNearest_nearest hbits (n * f.one) Nat.one_pos
  rw [Nat.cast_one, div_one, Nat.cast_mul] at h
  exact h

/-- A product is rounded to the nearest code. -/
theorem isNearest_mul (x y : Binary f) :
    f.IsNearest (x.units * y.units / f.one) (x.mul y).code := by
  have h := f.isNearest_nearest hbits (x.units * y.units) (Nat.two_pow_pos f.unitExponent)
  rw [Nat.cast_mul] at h
  exact h

/-- A quotient is rounded to the nearest code. -/
theorem isNearest_div (x : Binary f) (hy : 0 < y.units) :
    f.IsNearest (x.units * f.one / y.units) (x.div y).code := by
  have h := f.isNearest_nearest hbits (x.units * f.one) hy
  rw [Nat.cast_mul] at h
  exact h

/-- A whole number that fits the significand is a magnitude. -/
theorem units_ofNat {n : ℕ} (hn : n ≤ 2 * 2 ^ f.fractionBits)
    (hfinite : (ofNat n : Binary f).isFinite = true) :
    (ofNat n : Binary f).units = n * f.one := by
  obtain ⟨code, hcode⟩ := f.exists_units_eq hn f.unitExponent
  have hquantity : (n * f.one : ℚ) = f.units code := by
    rw [hcode, Format.one]
    push_cast
    rfl
  have hnearest := isNearest_ofNat hbits n
  have hsame : (ofNat n : Binary f).code = code :=
    le_antisymm (hnearest.le_of_le_units hquantity.le)
      (hnearest.units_le_of_le (isFinite_iff.mp hfinite) hquantity.ge)
  rw [units, hsame, hcode, Format.one]

/-- A whole number is rounded by at most half a step of the power of two below it. -/
theorem abs_units_ofNat_sub_le {n e : ℕ} (hn : n < 2 ^ (e + 1))
    (hfinite : (ofNat n : Binary f).isFinite = true) :
    |((ofNat n : Binary f).units : ℚ) - n * f.one| ≤ 2 ^ e * f.one * f.roundoff := by
  obtain ⟨rest, hrest⟩ : ∃ rest, f.unitExponent = rest + f.fractionBits := ⟨_, rfl⟩
  have hone : (f.one : ℚ) = 2 ^ rest * 2 ^ f.fractionBits := by
    rw [Format.one, hrest, Nat.pow_add]
    push_cast
    rfl
  have hle : (n * f.one : ℚ) ≤ 2 * 2 ^ f.fractionBits * 2 ^ (e + rest) := by
    have hnq : (n : ℚ) ≤ 2 ^ (e + 1) := by exact_mod_cast hn.le
    calc (n * f.one : ℚ) ≤ 2 ^ (e + 1) * f.one :=
          mul_le_mul_of_nonneg_right hnq f.one_pos.le
      _ = 2 * 2 ^ f.fractionBits * 2 ^ (e + rest) := by rw [hone]; ring
  refine ((isNearest_ofNat hbits n).abs_units_sub_le (isFinite_iff.mp hfinite) ?_ hle).trans_eq ?_
  · exact mul_nonneg (Nat.cast_nonneg _) f.one_pos.le
  · rw [hone, Format.roundoff]
    field_simp
    ring

/-- A positive whole number is rounded by a small proportion. -/
theorem within_ofNat {n : ℕ} (hn : 0 < n) (hfinite : (ofNat n : Binary f).isFinite = true) :
    Within (1 + f.roundoff) (n * f.one) (ofNat n : Binary f).units := by
  refine (isNearest_ofNat hbits n).within (isFinite_iff.mp hfinite) ?_
  have hle : 2 ^ f.fractionBits ≤ n * f.one :=
    (Nat.pow_le_pow_right Nat.two_pos (Nat.le_add_left _ _)).trans (Nat.le_mul_of_pos_left _ hn)
  exact_mod_cast hle

end

end Binary

end SqlFragments.Number
