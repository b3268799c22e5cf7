import SqlFragments.Proofs.Number.Nearest

/-!
# The closest number of a format

Rounding was described by the middles between neighbouring magnitudes.  Here the same is
said of the numbers themselves: among all finite numbers of the format, of either sign, none
is closer to the quantity, and if another is as close, the significand of the chosen one is
even.  The rounded code has this property, and it determines the value.

Main results:

- `Format.IsNearest.le_and_tie`: no magnitude is closer than the nearest one, and of two as
  close the nearest one has the even code.
- `Binary.isClosest_of_isNearest`: a number with the nearest code is the closest number.
- `Binary.IsClosest.value_eq`: all closest numbers have one value.
- `Binary.isClosest_ofInt`: an integer below infinity is rounded to the closest number.
-/

namespace SqlFragments.Number

attribute [local instance (high)] instPowNat

/-! ## Magnitudes other than the nearest one -/

namespace Format

variable {f : Format} {q : ℚ} {code other : ℕ}

/-- No smaller magnitude is closer than the nearest one, and one that is as close has an odd
code. -/
theorem IsNearest.le_and_tie_of_lt (h : f.IsNearest q code) (hlt : other < code) :
    |(f.units code : ℚ) - q| ≤ |(f.units other : ℚ) - q| ∧
      (|(f.units other : ℚ) - q| = |(f.units code : ℚ) - q| → Even code ∧ ¬Even other) := by
  obtain ⟨below, rfl⟩ : ∃ below, code = below + 1 := ⟨code - 1, by omega⟩
  have hmiddle := h.above below rfl
  have hstep : (f.units below : ℚ) < f.units (below + 1) := by
    exact_mod_cast f.units_strictMono below.lt_succ_self
  have hother : (f.units other : ℚ) ≤ f.units below := by
    exact_mod_cast f.units_strictMono.monotone (by omega)
  have heven := h.even_above below rfl
  unfold middle at hmiddle heven
  have hdistance : |(f.units other : ℚ) - q| = q - f.units other := by
    rw [abs_sub_comm, abs_of_nonneg (by linarith)]
  rw [hdistance]
  refine ⟨abs_le.mpr ⟨by linarith, by linarith⟩, ?_⟩
  intro htie
  have hsame : (f.units other : ℚ) = f.units below ∧
      q = (f.units below + f.units (below + 1)) / 2 := by
    rcases le_total (f.units (below + 1) : ℚ) q with hle | hge
    · rw [abs_sub_comm, abs_of_nonneg (by linarith)] at htie
      exact absurd htie (by linarith)
    · rw [abs_of_nonneg (by linarith)] at htie
      exact ⟨by linarith, by linarith⟩
  obtain rfl : other = below := f.units_strictMono.injective (by exact_mod_cast hsame.1)
  exact ⟨heven hsame.2, Nat.even_add_one.mp (heven hsame.2)⟩

/-- No greater finite magnitude is closer than the nearest one, and one that is as close has
an odd code. -/
theorem IsNearest.le_and_tie_of_gt (h : f.IsNearest q code) (hlt : code < other)
    (hfinite : other < f.infinity) :
    |(f.units code : ℚ) - q| ≤ |(f.units other : ℚ) - q| ∧
      (|(f.units other : ℚ) - q| = |(f.units code : ℚ) - q| → Even code ∧ ¬Even other) := by
  have hmiddle := h.below (by omega)
  have hstep : (f.units code : ℚ) < f.units (code + 1) := by
    exact_mod_cast f.units_strictMono code.lt_succ_self
  have hother : (f.units (code + 1) : ℚ) ≤ f.units other := by
    exact_mod_cast f.units_strictMono.monotone (by omega)
  have heven := h.even_below (by omega)
  unfold middle at hmiddle heven
  have hdistance : |(f.units other : ℚ) - q| = f.units other - q :=
    abs_of_nonneg (by linarith)
  rw [hdistance]
  refine ⟨abs_le.mpr ⟨by linarith, by linarith⟩, ?_⟩
  intro htie
  have hsame : (f.units other : ℚ) = f.units (code + 1) ∧
      q = (f.units code + f.units (code + 1)) / 2 := by
    rcases le_total (f.units code : ℚ) q with hle | hge
    · rw [abs_sub_comm, abs_of_nonneg (by linarith)] at htie
      exact ⟨by linarith, by linarith⟩
    · rw [abs_of_nonneg (by linarith)] at htie
      exact absurd htie (by linarith)
  obtain rfl : other = code + 1 := f.units_strictMono.injective (by exact_mod_cast hsame.1)
  exact ⟨heven hsame.2, fun hodd => Nat.even_add_one.mp hodd (heven hsame.2)⟩

/-- No finite magnitude is closer than the nearest one; if another is as close, the nearest
one has the even code of the two. -/
theorem IsNearest.le_and_tie (h : f.IsNearest q code) (hfinite : other < f.infinity) :
    |(f.units code : ℚ) - q| ≤ |(f.units other : ℚ) - q| ∧
      (|(f.units other : ℚ) - q| = |(f.units code : ℚ) - q| → other ≠ code →
        Even code ∧ ¬Even other) := by
  rcases lt_trichotomy other code with hlt | rfl | hgt
  · have hbelow := h.le_and_tie_of_lt hlt
    exact ⟨hbelow.1, fun htie _ => hbelow.2 htie⟩
  · exact ⟨le_rfl, fun _ hne => absurd rfl hne⟩
  · have habove := h.le_and_tie_of_gt hgt hfinite
    exact ⟨habove.1, fun htie _ => habove.2 htie⟩

/-- The unit of a format is positive. -/
theorem one_pos (f : Format) : (0 : ℚ) < f.one := by
  exact_mod_cast Nat.two_pow_pos f.unitExponent

/-- A format with exponent bits has finite codes. -/
theorem infinity_pos (hbits : 0 < f.exponentBits) : 0 < f.infinity := by
  have hone : 1 < 2 ^ f.exponentBits := Nat.one_lt_two_pow hbits.ne'
  exact Nat.mul_pos (by omega) (Nat.two_pow_pos _)

end Format

/-! ## Values -/

/-- A quantity with a sign. -/
def signed (negative : Bool) (q : ℚ) : ℚ := if negative then -q else q

/-- A sign passes through a quotient. -/
theorem signed_div (negative : Bool) (q r : ℚ) :
    signed negative q / r = signed negative (q / r) := by
  cases negative
  · rfl
  · exact neg_div r q

/-- The distance of two quantities does not change when both change their signs. -/
theorem abs_signed_sub_signed (negative other : Bool) (q r : ℚ) :
    |signed negative q - signed other r| = |signed (negative != other) q - r| := by
  cases negative <;> cases other
  · rfl
  · change |q - -r| = |-q - r|
    rw [← abs_neg, neg_sub', neg_neg]
  · rfl
  · change |-q - -r| = |q - r|
    rw [neg_sub_neg, abs_sub_comm]

namespace Binary

variable {f : Format} {x y : Binary f} {q : ℚ} {negative : Bool}

/-- The value of a finite number. -/
def value (x : Binary f) : ℚ := signed x.negative (x.units / f.one)

/-- The significand of a finite number: the fraction field, with a leading one unless the
exponent field is zero. -/
def significand (x : Binary f) : ℕ :=
  if x.code / 2 ^ f.fractionBits = 0 then x.fraction else 2 ^ f.fractionBits + x.fraction

/-- A finite number is closest to a quantity: no finite number of the format is closer, and
if one with another value is as close, the significand is even. -/
structure IsClosest (x : Binary f) (q : ℚ) : Prop where
  finite : x.isFinite = true
  closest : ∀ y : Binary f, y.isFinite = true → |x.value - q| ≤ |y.value - q|
  even : ∀ y : Binary f, y.isFinite = true → y.value ≠ x.value →
    |y.value - q| = |x.value - q| → Even x.significand

/-- A code and its significand are even together. -/
theorem even_significand_iff (hbits : 0 < f.fractionBits) (x : Binary f) :
    Even x.significand ↔ Even x.code := by
  have hsize : Even (2 ^ f.fractionBits) := (Nat.even_pow' hbits.ne').mpr even_two
  have hsplit := Nat.div_add_mod x.code (2 ^ f.fractionBits)
  have hcode : Even x.code ↔ Even x.fraction := by
    rw [← hsplit, Nat.even_add, iff_true_left (hsize.mul_right _)]
    rfl
  unfold significand
  split
  · exact hcode.symm
  · rw [Nat.even_add, iff_true_left hsize, hcode]

/-- How far a number is from a quantity with a sign, in units. -/
theorem abs_value_sub (y : Binary f) (negative : Bool) (q : ℚ) :
    |y.value - signed negative q| =
      |signed (y.negative != negative) y.units - q * f.one| / f.one := by
  have hone := f.one_pos
  rw [value, abs_signed_sub_signed, ← signed_div, div_sub' hone.ne', abs_div, abs_of_pos hone,
    mul_comm]

/-- Seen from a quantity that is not negative, a number of the other sign is no closer than
zero, and as close only if it is zero itself. -/
theorem exists_code_no_farther (hbits : 0 < f.exponentBits) (hy : y.isFinite = true) (hq : 0 ≤ q)
    (negative : Bool) :
    ∃ code < f.infinity,
      |(f.units code : ℚ) - q| ≤ |signed (y.negative != negative) y.units - q| ∧
      (|signed (y.negative != negative) y.units - q| = |(f.units code : ℚ) - q| →
        y.value = signed negative (f.units code / f.one) ∧ y.code = code) := by
  cases hsign : y.negative != negative with
  | false =>
    have hsame : y.negative = negative := by simpa using hsign
    refine ⟨y.code, isFinite_iff.mp hy, le_rfl, fun _ => ⟨?_, rfl⟩⟩
    rw [value, hsame]
    rfl
  | true =>
    have hunits : (0 : ℚ) ≤ y.units := Nat.cast_nonneg _
    have hzero : f.units 0 = 0 := by simp [Format.units]
    have hdistance : |signed true y.units - q| = y.units + q := by
      change |-(y.units : ℚ) - q| = y.units + q
      rw [← neg_add', abs_neg, abs_of_nonneg (by linarith)]
    refine ⟨0, Format.infinity_pos hbits, ?_, ?_⟩
    · rw [hdistance, hzero, Nat.cast_zero, zero_sub, abs_neg, abs_of_nonneg hq]
      linarith
    · intro htie
      rw [hdistance, hzero, Nat.cast_zero, zero_sub, abs_neg, abs_of_nonneg hq] at htie
      have hyzero : y.units = 0 := by exact_mod_cast (by linarith : (y.units : ℚ) = 0)
      have hcode : y.code = 0 := f.units_strictMono.injective (hyzero.trans hzero.symm)
      refine ⟨?_, hcode⟩
      rw [value, hyzero, hzero, Nat.cast_zero, zero_div]
      cases y.negative <;> cases negative <;> simp [signed]

section

variable (hexponent : 0 < f.exponentBits) (hfraction : 0 < f.fractionBits)
  (hx : x.isFinite = true) (hq : 0 ≤ q) (h : f.IsNearest (q * f.one) x.code)

include hexponent hq h

/-- No finite number is closer to a quantity than one with its sign and the nearest code; of
two as close with different values, the one with the nearest code has the even code. -/
theorem le_and_tie_of_isNearest (hy : y.isFinite = true) :
    |x.value - signed x.negative q| ≤ |y.value - signed x.negative q| ∧
      (|y.value - signed x.negative q| = |x.value - signed x.negative q| →
        y.value ≠ x.value → Even x.code ∧ ¬Even y.code) := by
  have hone := f.one_pos
  have hscaled : 0 ≤ q * f.one := mul_nonneg hq hone.le
  obtain ⟨code, hcode, hle, hsame⟩ := exists_code_no_farther hexponent hy hscaled x.negative
  have hnearest := h.le_and_tie hcode
  have hself : |x.value - signed x.negative q| = |(f.units x.code : ℚ) - q * f.one| / f.one := by
    rw [abs_value_sub, bne_self_eq_false]
    rfl
  rw [hself, abs_value_sub, div_left_inj' hone.ne']
  refine ⟨div_le_div_of_nonneg_right (hnearest.1.trans hle) hone.le, ?_⟩
  intro htie hne
  have hequal : |(f.units code : ℚ) - q * f.one| = |(f.units x.code : ℚ) - q * f.one| :=
    le_antisymm (hle.trans_eq htie) hnearest.1
  obtain ⟨hvalue, rfl⟩ := hsame (htie.trans hequal.symm)
  have hdiffer : y.code ≠ x.code := by
    intro hcodes
    rw [hcodes] at hvalue
    exact hne hvalue
  exact hnearest.2 hequal hdiffer

include hfraction hx

/-- A finite number with the nearest code is closest to the quantity with its sign. -/
theorem isClosest_of_isNearest : x.IsClosest (signed x.negative q) where
  finite := hx
  closest := fun _ hy => (le_and_tie_of_isNearest hexponent hq h hy).1
  even := fun _ hy hne htie => by
    have hcodes := (le_and_tie_of_isNearest hexponent hq h hy).2 htie hne
    exact (even_significand_iff hfraction x).mpr hcodes.1

/-- All numbers that are closest to a quantity have one value. -/
theorem IsClosest.value_eq (hy : y.IsClosest (signed x.negative q)) : y.value = x.value := by
  by_contra hne
  obtain ⟨hle, htie⟩ := le_and_tie_of_isNearest hexponent hq h hy.finite
  have hequal : |y.value - signed x.negative q| = |x.value - signed x.negative q| :=
    le_antisymm (hy.closest x hx) hle
  -- Both would have even significands, but of two codes as close only one is even.
  have heven : Even y.code :=
    (even_significand_iff hfraction y).mp (hy.even x hx (Ne.symm hne) hequal.symm)
  exact (htie hequal hne).2 heven

end

/-! ## Integers -/

/-- A quantity with the sign of an integer and its magnitude is the integer. -/
theorem signed_natAbs (i : ℤ) : signed (decide (i < 0)) i.natAbs = i := by
  rcases lt_or_ge i 0 with hneg | hpos
  · have habs : (i.natAbs : ℤ) = -i := by omega
    have hcast : ((i.natAbs : ℤ) : ℚ) = -i := by rw [habs, Int.cast_neg]
    rw [decide_eq_true hneg, signed, if_pos rfl, ← Int.cast_natCast, hcast, neg_neg]
  · have habs : (i.natAbs : ℤ) = i := by omega
    rw [decide_eq_false hpos.not_gt, signed, if_neg (by decide), ← Int.cast_natCast, habs]

/-- The code of an integer is nearest to its magnitude. -/
theorem isNearest_code_ofInt (hfraction : 0 < f.fractionBits) (i : ℤ) :
    f.IsNearest (i.natAbs * f.one) (ofInt i : Binary f).code := by
  have h := f.isNearest_nearest hfraction (i.natAbs * f.one) Nat.one_pos
  rw [Nat.cast_one, div_one, Nat.cast_mul] at h
  exact h

/-- An integer whose magnitude does not exceed a bound is rounded to a finite number, if the
bound is. -/
theorem isFinite_ofInt (hfraction : 0 < f.fractionBits) {bound : ℕ}
    (hbound : f.nearest (bound * f.one) 1 < f.infinity) {i : ℤ} (hi : i.natAbs ≤ bound) :
    (ofInt i : Binary f).isFinite = true := by
  have hmono : f.nearest (i.natAbs * f.one) 1 ≤ f.nearest (bound * f.one) 1 :=
    f.nearest_mono hfraction Nat.one_pos Nat.one_pos (by gcongr)
  exact isFinite_iff.mpr (hmono.trans_lt hbound)

/-- An integer that is rounded to a finite number is rounded to the closest one, and all
closest numbers have its value. -/
theorem isClosest_ofInt (hexponent : 0 < f.exponentBits) (hfraction : 0 < f.fractionBits) {i : ℤ}
    (hfinite : (ofInt i : Binary f).isFinite = true) :
    (ofInt i : Binary f).IsClosest i ∧
      ∀ y : Binary f, y.IsClosest i → y.value = (ofInt i : Binary f).value := by
  have hnearest := isNearest_code_ofInt hfraction i
  have hnonneg : (0 : ℚ) ≤ i.natAbs := Nat.cast_nonneg _
  have hsigned : signed (ofInt i : Binary f).negative i.natAbs = i := signed_natAbs i
  have hclosest := isClosest_of_isNearest hexponent hfraction hfinite hnonneg hnearest
  rw [hsigned] at hclosest
  refine ⟨hclosest, fun y hy => ?_⟩
  exact IsClosest.value_eq hexponent hfraction hfinite hnonneg hnearest (hsigned.symm ▸ hy)

end Binary

end SqlFragments.Number
