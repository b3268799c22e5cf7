import SqlFragments.Json.Numeral
import SqlFragments.Proofs.Number.Shortest

/-!
# The number that a numeral scales to

A numeral whose digits fit a word is one whole number times a power of ten.  Its number
is found by rounding the whole number and then multiplying or dividing by the rounded
power, so the result can differ from the nearest number.  It is still finite wherever the
numeral is at most the decimal of the greatest number, and the sign is kept.

Main results:

- `Numeral.readFloat_eq`: reading is one rounding and one scaling by a power of ten.
- `Numeral.code_scaleDown_le`: division by powers of ten does not increase a number.
- `Numeral.exists_readFloat`: the number of a numeral that is not too great is finite and
  has the sign of the numeral.
-/

namespace SqlFragments.Number

attribute [local instance (high)] instPowNat

/-! ## Rounded arithmetic is monotone -/

namespace Binary

variable {f : Format}

/-- A greater integer is rounded to a code that is no smaller. -/
theorem code_ofNat_mono (hbits : 0 < f.fractionBits) {m n : ℕ} (h : m ≤ n) :
    (ofNat m : Binary f).code ≤ (ofNat n : Binary f).code :=
  f.nearest_mono hbits Nat.one_pos Nat.one_pos
    (Nat.mul_le_mul_right _ (Nat.mul_le_mul_right _ h))

/-- The code of a product grows with the codes of its factors. -/
theorem code_mul_mono (hbits : 0 < f.fractionBits) {x x' y y' : Binary f} (hx : x.code ≤ x'.code)
    (hy : y.code ≤ y'.code) : (x.mul y).code ≤ (x'.mul y').code := by
  have hone : 0 < f.one := Nat.two_pow_pos _
  refine f.nearest_mono hbits hone hone (Nat.mul_le_mul_right _ ?_)
  exact Nat.mul_le_mul (f.units_strictMono.monotone hx) (f.units_strictMono.monotone hy)

/-- A quotient by a number of at least one is not greater than what is divided. -/
theorem code_div_le (hbits : 0 < f.fractionBits) {x y : Binary f} (hx : x.isFinite = true)
    (hy : f.one ≤ y.units) : (x.div y).code ≤ x.code := by
  have hone : 0 < f.one := Nat.two_pow_pos _
  have hself := f.nearest_units hbits (Binary.isFinite_iff.mp hx)
  calc (x.div y).code ≤ f.nearest x.units 1 := by
        refine f.nearest_mono hbits (hone.trans_le hy) Nat.one_pos ?_
        rw [Nat.mul_one]
        exact Nat.mul_le_mul_left _ hy
    _ = x.code := hself

end Binary

end SqlFragments.Number

namespace SqlFragments.Json.Numeral

open Number

attribute [local instance (high)] instPowNat

/-! ## Digits and their power of ten -/

/-- The whole number of all digits of a numeral. -/
def significand (n : Numeral) : ℕ := ofDigits (n.whole ++ n.fraction)

/-- The power of ten that the last digit of a numeral counts. -/
def scale (n : Numeral) : ℤ := n.writtenExponent - n.fraction.length

/-- Digits that fit a word are all taken. -/
theorem takeDigits_eq {left row : List ℕ} (h : ofDigits (left ++ row) < wordSize) :
    takeDigits (ofDigits left) row = (ofDigits (left ++ row), []) := by
  induction row generalizing left with
  | nil => rw [takeDigits, List.append_nil]
  | cons d row ih =>
    rw [List.append_cons] at h ⊢
    have hfits := (ofDigits_le_append (left ++ [d]) row).trans_lt h
    rw [takeDigits, ← ofDigits_append_singleton, if_pos hfits, ih h]

/-- A numeral of one word is its significand scaled by its power of ten. -/
theorem readFloat_eq {n : Numeral} (h : n.significand < wordSize) :
    n.readFloat = (if 0 ≤ n.scale then scaleUp (Binary.ofNat n.significand) n.scale.toNat
      else some (scaleDown (Binary.ofNat n.significand) (-n.scale).toNat)).map
        fun y => if n.negative then y.neg else y := by
  have hfits : ofDigits ([] ++ n.whole) < wordSize := (ofDigits_le_append _ _).trans_lt h
  have hwhole := takeDigits_eq hfits
  change takeDigits 0 n.whole = (ofDigits n.whole, []) at hwhole
  have hfraction : takeDigits (ofDigits n.whole) n.fraction = (n.significand, []) :=
    takeDigits_eq h
  have hscale : n.writtenExponent + (([] : List ℕ).length : ℤ) -
      (n.fraction.length - (([] : List ℕ).length : ℤ)) = n.scale := by
    simp [scale]
  unfold readFloat
  simp only [hwhole, hfraction, hscale]

/-! ## Division by powers of ten -/

/-- The code of a power of ten grows with the exponent. -/
theorem code_power_mono {m n : ℕ} (h : m ≤ n) : (power m).code ≤ (power n).code :=
  Binary.code_ofNat_mono Format.double_fractionBits_pos (Nat.pow_le_pow_right (by decide) h)

/-- A power of ten is at least one, also after rounding. -/
theorem one_le_units_power (n : ℕ) : Format.double.one ≤ (power n).units := by
  have hcode : (Binary.ofNat 1 : Binary64).code ≤ (power n).code :=
    Binary.code_ofNat_mono Format.double_fractionBits_pos (ten_pow_pos _)
  have hone : Format.double.units (Binary.ofNat 1 : Binary64).code = Format.double.one := by
    decide +kernel
  rw [← hone]
  exact Format.double.units_strictMono.monotone hcode

/-- Dividing by a power of ten gives no greater magnitude and keeps the sign. -/
theorem code_div_power_le {x : Binary64} (hx : x.isFinite = true) (n : ℕ) :
    (x.div (power n)).code ≤ x.code ∧ (x.div (power n)).negative = x.negative := by
  constructor
  · exact Binary.code_div_le Format.double_fractionBits_pos hx (one_le_units_power n)
  · exact Bool.bne_false x.negative

/-- Division by powers of ten does not increase a number, and it keeps the sign. -/
theorem code_scaleDown_le {x : Binary64} (hx : x.isFinite = true) (n : ℕ) :
    (scaleDown x n).code ≤ x.code ∧ (scaleDown x n).negative = x.negative := by
  -- A quotient is finite since it is not greater, and so the next division applies to it.
  fun_induction scaleDown x n with
  | case1 x n hn => exact code_div_power_le hx n
  | case2 x n hn hzero => exact ⟨le_rfl, rfl⟩
  | case3 x n hn hzero ih =>
    obtain ⟨hcode, hsign⟩ := code_div_power_le hx maxPower
    have hfinite := Binary.isFinite_iff.mpr (hcode.trans_lt (Binary.isFinite_iff.mp hx))
    obtain ⟨hle, hkept⟩ := ih hfinite
    exact ⟨hle.trans hcode, hkept.trans hsign⟩

/-! ## Multiplication by powers of ten -/

/-- With a small power of ten the product of seventeen digits is far from infinity. -/
theorem code_mul_power_small :
    ((Binary.ofNat (10 ^ 17) : Binary64).mul (power 291)).code < Format.double.infinity := by
  decide +kernel

/-- With a great power of ten the greatest product is finite, although both factors and
the product are rounded. -/
theorem code_mul_power_great : ∀ k < 17,
    ((Binary.ofNat (greatestDecimal / 10 ^ (292 + k)) : Binary64).mul (power (292 + k))).code <
      Format.double.infinity := by
  decide +kernel

/-- A positive multiple of a power of ten is not below that power. -/
theorem exponent_lt {m exponent limit count : ℕ} (hpos : 0 < m) (hle : m * 10 ^ exponent ≤ limit)
    (hlimit : limit < 10 ^ count) : exponent < count := by
  have hpower : 10 ^ exponent < 10 ^ count :=
    calc 10 ^ exponent ≤ m * 10 ^ exponent := Nat.le_mul_of_pos_left _ hpos
      _ ≤ limit := hle
      _ < 10 ^ count := hlimit
  exact (Nat.pow_lt_pow_iff_right (by decide)).mp hpower

/-- The product of at most seventeen digits and a power of ten is finite, if the decimal is
at most that of the greatest number. -/
theorem code_mul_power_lt {m exponent : ℕ} (hdigits : m ≤ 10 ^ 17) (hexponent : exponent < 309)
    (hle : m * 10 ^ exponent ≤ greatestDecimal) :
    ((Binary.ofNat m : Binary64).mul (power exponent)).code < Format.double.infinity := by
  have hbits := Format.double_fractionBits_pos
  by_cases hsmall : exponent < 292
  · have hm : (Binary.ofNat m : Binary64).code ≤ (Binary.ofNat (10 ^ 17) : Binary64).code :=
      Binary.code_ofNat_mono hbits hdigits
    have hpower : (power exponent).code ≤ (power 291).code := code_power_mono (by omega)
    exact (Binary.code_mul_mono hbits hm hpower).trans_lt code_mul_power_small
  · obtain ⟨k, rfl⟩ := Nat.exists_eq_add_of_le (not_lt.mp hsmall)
    have hdecimal : m ≤ greatestDecimal / 10 ^ (292 + k) :=
      (Nat.le_div_iff_mul_le (ten_pow_pos _)).mpr hle
    have hm := Binary.code_ofNat_mono hbits hdecimal
    exact (Binary.code_mul_mono hbits hm le_rfl).trans_lt (code_mul_power_great k (by omega))

/-- A positive number of at most seventeen digits scales up to a finite number, if the
decimal is at most that of the greatest number. -/
theorem exists_scaleUp {m exponent : ℕ} (hpos : 0 < m) (hdigits : m ≤ 10 ^ 17)
    (hle : m * 10 ^ exponent ≤ greatestDecimal) :
    ∃ y, scaleUp (Binary.ofNat m) exponent = some y ∧ y.isFinite = true ∧ y.negative = false := by
  have hexponent : exponent < 309 := exponent_lt hpos hle (by decide +kernel)
  have hmax : exponent ≤ maxPower := Nat.le_of_lt_succ hexponent
  have hfinite := code_mul_power_lt hdigits hexponent hle
  have hinfinite : ((Binary.ofNat m : Binary64).mul (power exponent)).isInfinite = false :=
    beq_false_of_ne hfinite.ne
  refine ⟨(Binary.ofNat m).mul (power exponent), ?_, Binary.isFinite_iff.mpr hfinite, rfl⟩
  rw [scaleUp, if_pos hmax]
  simp only [hinfinite]
  rfl

/-! ## The number of a numeral -/

/-- A numeral of at most seventeen digits and not above the decimal of the greatest number
stands for a finite number with its sign. -/
theorem exists_readFloat {n : Numeral} (hdigits : n.significand ≤ 10 ^ 17)
    (hpos : 0 ≤ n.scale → 0 < n.significand)
    (hle : (n.significand * 10 ^ n.scale : ℚ) ≤ greatestDecimal) :
    ∃ y, n.readFloat = some y ∧ y.isFinite = true ∧ y.negative = n.negative := by
  have hfits : n.significand < wordSize := hdigits.trans_lt (by decide)
  have hscaled : ∃ y, (if 0 ≤ n.scale then scaleUp (Binary.ofNat n.significand) n.scale.toNat
      else some (scaleDown (Binary.ofNat n.significand) (-n.scale).toNat)) = some y ∧
        y.isFinite = true ∧ y.negative = false := by
    split_ifs with hsign
    · refine exists_scaleUp (hpos hsign) hdigits ?_
      rw [← Int.toNat_of_nonneg hsign, zpow_natCast] at hle
      exact_mod_cast hle
    · have hwhole : (Binary.ofNat n.significand : Binary64).isFinite = true := by
        have hcode := Binary.code_ofNat_mono Format.double_fractionBits_pos hdigits
        exact Binary.isFinite_iff.mpr (hcode.trans_lt (by decide +kernel))
      obtain ⟨hcode, hkept⟩ := code_scaleDown_le hwhole (-n.scale).toNat
      have hscaled := Binary.isFinite_iff.mpr (hcode.trans_lt (Binary.isFinite_iff.mp hwhole))
      exact ⟨_, rfl, hscaled, hkept⟩
  obtain ⟨y, hy, hfinite, hsign⟩ := hscaled
  rw [readFloat_eq hfits, hy, Option.map_some]
  cases n.negative with
  | true => exact ⟨y.neg, rfl, hfinite, by rw [Binary.neg, hsign]; rfl⟩
  | false => exact ⟨y, rfl, hfinite, hsign⟩

end SqlFragments.Json.Numeral
