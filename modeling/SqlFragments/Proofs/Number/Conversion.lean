import SqlFragments.Proofs.Number.Closest

/-!
# Conversion between formats

A finite number is converted by rounding its value to the other format.  A format extends
another if it has all of its finite numbers; then the value is kept, and converting back
gives the number again.  In the other direction a value from the middle below infinity on
becomes infinite, and any smaller one becomes the closest number.

Main results:

- `Format.IsNearest.eq_infinity_iff`: when a quantity is rounded to infinity.
- `Binary.value_convert`: a wider format keeps the value.
- `Binary.convert_convert`: a number that was made wider is made narrow again unchanged.
- `Binary.isInfinite_convert_iff` and `Binary.isClosest_convert`: what a conversion gives.
-/

namespace SqlFragments.Number

attribute [local instance (high)] instPowNat

/-! ## Magnitudes of a wider format -/

namespace Format

variable {f g : Format}

/-- A number of steps that fits the fraction is a magnitude, whatever the size of the step. -/
theorem exists_units_eq (f : Format) {m : ℕ} (hm : m ≤ 2 * 2 ^ f.fractionBits) (shift : ℕ) :
    ∃ code, f.units code = m * 2 ^ shift := by
  induction shift generalizing m with
  | zero => exact ⟨_, f.units_mul_add hm (.inl rfl)⟩
  | succ shift ih =>
    rcases Nat.lt_or_ge m (2 ^ f.fractionBits) with hlow | hfull
    · -- There is room for one more bit, and the step may be halved.
      obtain ⟨code, hcode⟩ := ih (m := 2 * m) (by omega)
      refine ⟨code, hcode.trans ?_⟩
      rw [Nat.pow_succ]
      ring
    · exact ⟨_, f.units_mul_add hm (.inr hfull)⟩

/-- A format extends another if it has more fraction bits, a smaller unit and a greater
range. -/
structure Extends (f g : Format) : Prop where
  fractionBits_le : f.fractionBits ≤ g.fractionBits
  unitExponent_le : f.unitExponent ≤ g.unitExponent
  infinity_le : f.units f.infinity * 2 ^ (g.unitExponent - f.unitExponent) ≤ g.units g.infinity

/-- The double format extends the single one. -/
theorem single_extends_double : single.Extends double where
  fractionBits_le := by decide
  unitExponent_le := by decide
  infinity_le := by decide +kernel

namespace Extends

/-- The units of the wider format are finer by a power of two. -/
theorem one_eq (h : f.Extends g) : g.one = f.one * 2 ^ (g.unitExponent - f.unitExponent) := by
  rw [one, one, ← Nat.pow_add, Nat.add_sub_cancel' h.unitExponent_le]

/-- Every finite magnitude is one of the wider format too. -/
theorem exists_units_eq (h : f.Extends g) {code : ℕ} (hcode : code < f.infinity) :
    ∃ other < g.infinity,
      g.units other = f.units code * 2 ^ (g.unitExponent - f.unitExponent) := by
  obtain ⟨shift, m, rfl, hm, hshift⟩ := f.exists_steps code
  have hfits : m ≤ 2 * 2 ^ g.fractionBits :=
    hm.le.trans (Nat.mul_le_mul_left 2 (Nat.pow_le_pow_right Nat.two_pos h.fractionBits_le))
  obtain ⟨other, hother⟩ :=
    g.exists_units_eq hfits (shift + (g.unitExponent - f.unitExponent))
  have hunits : g.units other = f.units (shift * 2 ^ f.fractionBits + m) *
      2 ^ (g.unitExponent - f.unitExponent) := by
    rw [hother, f.units_mul_add hm.le hshift, Nat.pow_add, Nat.mul_assoc]
  refine ⟨other, g.units_strictMono.lt_iff_lt.mp ?_, hunits⟩
  rw [hunits]
  refine lt_of_lt_of_le ?_ h.infinity_le
  exact Nat.mul_lt_mul_of_pos_right (f.units_strictMono hcode) (Nat.two_pow_pos _)

end Extends

/-! ## Overflow -/

/-- The code of infinity is even. -/
theorem even_infinity (hbits : 0 < f.fractionBits) : Even f.infinity :=
  ((Nat.even_pow' hbits.ne').mpr even_two).mul_left _

/-- A quantity is rounded to infinity exactly from the middle below infinity on. -/
theorem IsNearest.eq_infinity_iff (hexponent : 0 < f.exponentBits) (hfraction : 0 < f.fractionBits)
    {q : ℚ} {code : ℕ} (h : f.IsNearest q code) :
    code = f.infinity ↔ f.middle (f.infinity - 1) ≤ q := by
  have hpos := infinity_pos hexponent
  have hlast : f.infinity - 1 + 1 = f.infinity := Nat.sub_add_cancel hpos
  constructor
  · rintro rfl
    exact h.above _ hlast
  · intro hle
    by_contra hne
    have hfinite : code < f.infinity := lt_of_le_of_ne h.le_infinity hne
    have hbelow := h.below hfinite
    have hmono : f.middle code ≤ f.middle (f.infinity - 1) :=
      f.middle_strictMono.monotone (by omega)
    -- The quantity is the middle itself, and the greatest finite code is odd.
    have hsame : code = f.infinity - 1 := f.middle_strictMono.injective (by linarith)
    have heven := h.even_below hfinite (by linarith)
    have hinfinity := even_infinity hfraction
    rw [← hlast, ← hsame] at hinfinity
    exact Nat.even_add_one.mp hinfinity heven

end Format

/-! ## Conversion -/

namespace Binary

variable {f g : Format} {x : Binary f}

/-- The magnitude of a number is its units. -/
theorem abs_value (x : Binary f) : |x.value| = x.units / f.one := by
  have hmagnitude : (0 : ℚ) ≤ x.units / f.one := div_nonneg (Nat.cast_nonneg _) f.one_pos.le
  rw [value, signed]
  split
  · rw [abs_neg, abs_of_nonneg hmagnitude]
  · exact abs_of_nonneg hmagnitude

/-- A number is finite, infinite or not a number. -/
theorem isFinite_or_isInfinite (hx : x.isNaN = false) :
    x.isFinite = true ∨ x.code = f.infinity := by
  rw [isNaN, decide_eq_false_iff_not, not_lt] at hx
  exact (lt_or_eq_of_le hx).imp_left isFinite_iff.mpr

/-- A finite number is converted by rounding its exact value. -/
theorem convert_of_isFinite (hx : x.isFinite = true) (g : Format) :
    x.convert g = ofRatio x.negative x.units f.one := by
  have hcode := isFinite_iff.mp hx
  have hnan : x.isNaN = false := decide_eq_false hcode.not_gt
  have hinfinite : x.isInfinite = false := beq_false_of_ne hcode.ne
  rw [convert, hnan, hinfinite]
  rfl

/-- An infinite number is converted to the infinite one of its sign. -/
theorem convert_of_isInfinite (hx : x.code = f.infinity) (g : Format) :
    x.convert g = infinite x.negative := by
  have hnan : x.isNaN = false := decide_eq_false hx.le.not_gt
  have hinfinite : x.isInfinite = true := beq_iff_eq.mpr hx
  rw [convert, hnan, hinfinite]
  rfl

/-- A conversion keeps the sign. -/
@[simp]
theorem negative_convert (x : Binary f) (g : Format) : (x.convert g).negative = x.negative := by
  unfold convert
  split_ifs <;> rfl

/-- A conversion gives the code nearest to the magnitude. -/
theorem isNearest_convert (hfraction : 0 < g.fractionBits) (hx : x.isFinite = true) :
    g.IsNearest (|x.value| * g.one) (x.convert g).code := by
  have h := g.isNearest_nearest hfraction (x.units * g.one) (Nat.two_pow_pos f.unitExponent)
  rw [Nat.cast_mul, mul_div_right_comm] at h
  rw [convert_of_isFinite hx, abs_value]
  exact h

/-- A wider format keeps the value. -/
theorem value_convert (h : f.Extends g) (hfraction : 0 < g.fractionBits) (hx : x.isFinite = true) :
    (x.convert g).isFinite = true ∧ (x.convert g).value = x.value := by
  obtain ⟨code, hcode, hunits⟩ := h.exists_units_eq (isFinite_iff.mp hx)
  have hone := f.one_pos
  have hscale : (g.one : ℚ) = f.one * 2 ^ (g.unitExponent - f.unitExponent) := by
    rw [h.one_eq]
    push_cast
    rfl
  have hquantity : |x.value| * g.one = g.units code := by
    rw [abs_value, hunits, hscale, ← mul_assoc, div_mul_cancel₀ _ hone.ne']
    push_cast
    rfl
  have hnearest := isNearest_convert hfraction hx
  rw [hquantity] at hnearest
  have hsame : (x.convert g).code = code := hnearest.unique (Format.isNearest_units hcode)
  have hmagnitude : (g.units code : ℚ) / g.one = x.units / f.one := by
    rw [← hquantity, abs_value, mul_div_cancel_right₀ _ g.one_pos.ne']
  refine ⟨isFinite_iff.mpr (hsame ▸ hcode), ?_⟩
  rw [value, value, negative_convert, units, hsame, hmagnitude]

/-- Two numbers of one sign and code are equal. -/
theorem ext_of_code {y : Binary f} (hsign : x.negative = y.negative) (hcode : x.code = y.code) :
    x = y := by
  cases x
  cases y
  simp_all

/-- What was converted to a wider format is converted back to what it was. -/
theorem convert_convert (h : f.Extends g) (hf : 0 < f.fractionBits) (hg : 0 < g.fractionBits)
    (hx : x.isNaN = false) : (x.convert g).convert f = x := by
  refine ext_of_code (by rw [negative_convert, negative_convert]) ?_
  rcases isFinite_or_isInfinite hx with hfinite | hinfinite
  · obtain ⟨hwide, hvalue⟩ := value_convert h hg hfinite
    have hnearest := isNearest_convert hf hwide
    rw [hvalue, abs_value, div_mul_cancel₀ _ f.one_pos.ne'] at hnearest
    exact hnearest.unique (Format.isNearest_units (isFinite_iff.mp hfinite))
  · rw [convert_of_isInfinite hinfinite, convert_of_isInfinite rfl]
    exact hinfinite.symm

section

variable (hexponent : 0 < g.exponentBits) (hfraction : 0 < g.fractionBits)
  (hx : x.isFinite = true)

include hexponent hfraction hx

/-- A conversion gives an infinity exactly from the middle below infinity on. -/
theorem isInfinite_convert_iff :
    (x.convert g).isInfinite = true ↔ g.middle (g.infinity - 1) / g.one ≤ |x.value| := by
  rw [div_le_iff₀ g.one_pos, ← (isNearest_convert hfraction hx).eq_infinity_iff hexponent hfraction]
  exact beq_iff_eq

/-- Below that middle a conversion gives the closest number, and all closest numbers have its
value. -/
theorem isClosest_convert (hlt : |x.value| < g.middle (g.infinity - 1) / g.one) :
    (x.convert g).IsClosest x.value ∧
      ∀ y : Binary g, y.IsClosest x.value → y.value = (x.convert g).value := by
  have hnearest := isNearest_convert hfraction hx
  have hfinite : (x.convert g).isFinite = true := by
    refine isFinite_iff.mpr (lt_of_le_of_ne hnearest.le_infinity ?_)
    rw [ne_eq, hnearest.eq_infinity_iff hexponent hfraction, ← div_le_iff₀ g.one_pos]
    exact hlt.not_ge
  have hsigned : signed (x.convert g).negative |x.value| = x.value := by
    rw [negative_convert, abs_value]
    rfl
  have hclosest := isClosest_of_isNearest hexponent hfraction hfinite (abs_nonneg _) hnearest
  rw [hsigned] at hclosest
  refine ⟨hclosest, fun y hy => ?_⟩
  exact IsClosest.value_eq hexponent hfraction hfinite (abs_nonneg _) hnearest (hsigned.symm ▸ hy)

end

end Binary

end SqlFragments.Number
