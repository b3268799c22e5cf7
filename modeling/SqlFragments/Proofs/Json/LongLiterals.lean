import SqlFragments.Proofs.Json.ScalingErrors

/-!
# Digits beyond a word

Of a row of digits that does not fit a word the leading ones are taken, as many as fit, and the
others are only counted.  At least eighteen are taken, so what is left out is a hundredth of a
rounding.  The number that is read is therefore near the number closest to the whole row.

Main results:

- `Numeral.takeDigits_bounds`: what is taken of a row that does not fit a word.
- `Numeral.readFloat_long`: how far the number that is read is from the closest one.
-/

namespace SqlFragments.Json.Numeral

open Number

attribute [local instance (high)] instPowNat

/-! ## Digits that are taken -/

/-- Some of the digits are taken, and the next one would not fit. -/
theorem takeDigits_split (left row : List ℕ) (hleft : ofDigits left < wordSize) :
    ∃ before rest, row = before ++ rest ∧
      takeDigits (ofDigits left) row = (ofDigits (left ++ before), rest) ∧
      ofDigits (left ++ before) < wordSize ∧
      ∀ d ∈ rest.head?, wordSize ≤ ofDigits (left ++ before ++ [d]) := by
  induction row generalizing left with
  | nil => exact ⟨[], [], rfl, by simp [takeDigits], by simpa using hleft, by simp⟩
  | cons d row ih =>
    rw [takeDigits, ← ofDigits_append_singleton]
    split_ifs with hfits
    · obtain ⟨before, rest, rfl, htake, hword, hnext⟩ := ih (left ++ [d]) hfits
      refine ⟨d :: before, rest, rfl, ?_, ?_, ?_⟩
      · simpa using htake
      · simpa using hword
      · simpa using hnext
    · refine ⟨[], d :: row, rfl, by simp, by simpa using hleft, ?_⟩
      simpa using Nat.le_of_not_lt hfits

/-- Of a row that does not fit a word at least eighteen digits are taken, and what is left out
is less than one in the last of them. -/
theorem takeDigits_bounds {row : List ℕ} (hrow : ∀ d ∈ row, d < 10)
    (hlong : wordSize ≤ ofDigits row) :
    ∃ m rest, takeDigits 0 row = (m, rest) ∧ m < wordSize ∧ 10 ^ 18 ≤ m ∧
      m * 10 ^ rest.length ≤ ofDigits row ∧ ofDigits row < (m + 1) * 10 ^ rest.length := by
  obtain ⟨m, rest, rfl, htake, hword, hnext⟩ := takeDigits_split [] row (Nat.two_pow_pos 64)
  rw [List.nil_append] at htake hword hnext
  refine ⟨_, rest, htake, hword, ?_, ?_, ?_⟩
  · cases rest with
    | nil =>
      rw [List.append_nil] at hlong
      omega
    | cons d rest =>
      have hfull := hnext d rfl
      have hd := hrow d (by simp)
      rw [ofDigits_append_singleton] at hfull
      simp only [wordSize] at hfull
      omega
  · rw [ofDigits_append]
    exact Nat.le_add_right _ _
  · have hrest : ofDigits rest < 10 ^ rest.length :=
      ofDigits_lt fun d hd => hrow d (by simp [hd])
    rw [ofDigits_append, Nat.succ_mul]
    omega

/-! ## The number that is read -/

/-- A word is rounded to a finite number. -/
theorem isFinite_ofNat_word {m : ℕ} (hm : m < wordSize) :
    (Binary.ofNat m : Binary64).isFinite = true := by
  have hcode := Binary.code_ofNat_mono Format.double_fractionBits_pos hm.le
  exact Binary.isFinite_iff.mpr (hcode.trans_lt (by decide +kernel))

/-- The proportion of two roundings and of what is left out after eighteen digits. -/
def longFactor : ℚ :=
  (1 + 1 / 10 ^ 18) * ((1 + Format.double.roundoff) * (1 + Format.double.roundoff))

/-- The proportion is at least one. -/
theorem one_le_longFactor : 1 ≤ longFactor := by
  norm_num [longFactor, Format.roundoff, Format.double]

/-- Quantities in this proportion have codes at most three apart. -/
theorem le_add_three {q r : ℚ} {a b : ℕ} (ha : Format.double.IsNearest q a)
    (hb : Format.double.IsNearest r b) (hfinite : a < Format.double.infinity)
    (hle : r ≤ q * longFactor) : b ≤ a + 3 := by
  refine ha.le_add_of_le_mul hb hfinite one_le_longFactor hle ?_
  norm_num [longFactor, Format.roundoff, Format.double]

/-- No whole number of more than three hundred and nine digits has a finite nearest number. -/
theorem infinity_le_of_nearest {n code : ℕ} (hgreat : 10 ^ (maxPower + 1) ≤ n)
    (hnearest : Format.double.IsNearest (n * Format.double.one) code) :
    Format.double.infinity ≤ code := by
  have hpower : (Binary.ofNat (10 ^ (maxPower + 1)) : Binary64).code = Format.double.infinity := by
    decide +kernel
  have hleast := Binary.isNearest_ofNat Format.double_fractionBits_pos (10 ^ (maxPower + 1))
    (f := Format.double)
  rw [hpower] at hleast
  refine hleast.mono hnearest (mul_le_mul_of_nonneg_right ?_ Format.double.one_pos.le)
  exact_mod_cast hgreat

/-- A power of ten beyond the greatest one used leaves no number, and the whole number is
then too great as well. -/
theorem scaleUp_of_lt {m k n : ℕ} (hpos : 0 < m) (hle : m * 10 ^ k ≤ n) (hgreat : maxPower < k)
    {code : ℕ} (hnearest : Format.double.IsNearest (n * Format.double.one) code) :
    scaleUp (Binary.ofNat m : Binary64) k = none ∧ Format.double.infinity ≤ code := by
  have hn : 10 ^ (maxPower + 1) ≤ n :=
    calc 10 ^ (maxPower + 1) ≤ 10 ^ k := Nat.pow_le_pow_right (by decide) hgreat
      _ ≤ m * 10 ^ k := Nat.le_mul_of_pos_left _ hpos
      _ ≤ n := hle
  refine ⟨?_, infinity_le_of_nearest hn hnearest⟩
  simp [scaleUp, hgreat.not_ge, isZero_ofNat hpos]

section

variable {m k n : ℕ} (hlow : 10 ^ 18 ≤ m) (hword : m < wordSize) (hle : m * 10 ^ k ≤ n)
  (hlt : n < (m + 1) * 10 ^ k)

include hlow hword hle hlt

/-- The quantity that is rounded to the product differs from the whole number by no more. -/
theorem within_product (hk : k ≤ maxPower) :
    Within longFactor (n * Format.double.one)
      ((Binary.ofNat m : Binary64).units * (power k).units / Format.double.one) := by
  have hone := Format.double.one_pos
  have hpos : 0 < m := lt_of_lt_of_le (by decide) hlow
  have htaken : Within (1 + 1 / 10 ^ 18) (n : ℚ) (m * 10 ^ k) := by
    have hleq : (m * 10 ^ k : ℚ) ≤ n := by exact_mod_cast hle
    have hltq : (n : ℚ) < (m + 1) * 10 ^ k := by exact_mod_cast hlt
    have hlowq : (10 ^ 18 : ℚ) ≤ m := by exact_mod_cast hlow
    have hpower : (0 : ℚ) < 10 ^ k := by positivity
    generalize (10 : ℚ) ^ k = power at *
    constructor
    · nlinarith
    · nlinarith
  have hdigits := Binary.within_ofNat Format.double_fractionBits_pos hpos
    (isFinite_ofNat_word hword)
  have hproduct := (hdigits.mul (within_power hk) (mul_nonneg (Nat.cast_nonneg _) hone.le)
    (Nat.cast_nonneg _) (mul_nonneg (by positivity) hone.le) (Nat.cast_nonneg _)).div_right hone.le
  have hquantity : (m * Format.double.one * (10 ^ k * Format.double.one) / Format.double.one : ℚ) =
      m * 10 ^ k * Format.double.one := by
    field_simp
  rw [hquantity] at hproduct
  have hroundoff := Format.double.roundoff_pos
  exact (htaken.mul_right hone.le).trans hproduct (by positivity) (by positivity)

/-- The product has a code near those of the whole number. -/
theorem code_product_near (hk : k ≤ maxPower) {code : ℕ}
    (hnearest : Format.double.IsNearest (n * Format.double.one) code) :
    (code < Format.double.infinity →
        ((Binary.ofNat m : Binary64).mul (power k)).code ≤ code + 3) ∧
      (((Binary.ofNat m : Binary64).mul (power k)).code < Format.double.infinity →
        code ≤ ((Binary.ofNat m : Binary64).mul (power k)).code + 3) := by
  have hwithin := within_product hlow hword hle hlt hk
  have hproduct := Binary.isNearest_mul Format.double_fractionBits_pos (Binary.ofNat m) (power k)
  constructor
  · intro hfinite
    exact le_add_three hnearest hproduct hfinite hwithin.ge
  · intro hfinite
    exact le_add_three hproduct hnearest hfinite hwithin.le

/-- The digits that are taken are scaled to a number near the whole number; they have none
only where the number closest to it is at most three codes below infinity. -/
theorem scaleUp_near {code : ℕ}
    (hnearest : Format.double.IsNearest (n * Format.double.one) code) :
    (scaleUp (Binary.ofNat m : Binary64) k = none ∧ Format.double.infinity ≤ code + 3) ∨
      ∃ y : Binary64, scaleUp (Binary.ofNat m) k = some y ∧ y.isFinite = true ∧
        y.negative = false ∧ y.code ≤ code + 3 ∧ code ≤ y.code + 3 := by
  rcases Nat.lt_or_ge maxPower k with hgreat | hk
  · have hpos : 0 < m := lt_of_lt_of_le (by decide) hlow
    obtain ⟨hscale, hinfinity⟩ := scaleUp_of_lt hpos hle hgreat hnearest
    exact .inl ⟨hscale, hinfinity.trans (Nat.le_add_right _ _)⟩
  obtain ⟨hbelow, habove⟩ := code_product_near hlow hword hle hlt hk hnearest
  have hlimit : ((Binary.ofNat m : Binary64).mul (power k)).code ≤ Format.double.infinity :=
    Format.double.nearest_le_infinity _ _
  have hsign : ((Binary.ofNat m : Binary64).mul (power k)).negative = false := rfl
  have hscale : scaleUp (Binary.ofNat m : Binary64) k =
      if ((Binary.ofNat m : Binary64).mul (power k)).isInfinite then none
      else some ((Binary.ofNat m : Binary64).mul (power k)) := by
    simp [scaleUp, hk]
  rw [hscale]
  generalize (Binary.ofNat m : Binary64).mul (power k) = product at *
  have hcode : product.code ≤ code + 3 ∨ Format.double.infinity ≤ code :=
    (Nat.lt_or_ge code Format.double.infinity).imp_left hbelow
  cases hinfinite : product.isInfinite with
  | true =>
    have hend : product.code = Format.double.infinity := beq_iff_eq.mp hinfinite
    exact .inl ⟨rfl, by omega⟩
  | false =>
    have hfinite : product.code < Format.double.infinity :=
      lt_of_le_of_ne hlimit (by simpa [Binary.isInfinite] using hinfinite)
    exact .inr ⟨product, rfl, Binary.isFinite_iff.mpr hfinite, hsign, by omega, habove hfinite⟩

end

/-- A row of digits that does not fit a word is read as a finite number with the sign of the
numeral, at most three codes from the closest number; it has no number only where the closest
one is at most three codes below infinity. -/
theorem readFloat_long {row : List ℕ} (hrow : ∀ d ∈ row, d < 10)
    (hlong : wordSize ≤ ofDigits row) (negative : Bool) {code : ℕ}
    (hnearest : Format.double.IsNearest (ofDigits row * Format.double.one) code) :
    ((Numeral.mk negative row [] none).readFloat = none ∧ Format.double.infinity ≤ code + 3) ∨
      ∃ y, (Numeral.mk negative row [] none).readFloat = some y ∧ y.isFinite = true ∧
        y.negative = negative ∧ y.code ≤ code + 3 ∧ code ≤ y.code + 3 := by
  obtain ⟨m, rest, htake, hword, hlow, hle, hlt⟩ := takeDigits_bounds hrow hlong
  have hread : (Numeral.mk negative row [] none).readFloat =
      (scaleUp (Binary.ofNat m) rest.length).map fun y => if negative then y.neg else y := by
    simp [readFloat, htake, takeDigits, writtenExponent]
  rcases scaleUp_near hlow hword hle hlt hnearest with
    ⟨hscale, hinfinity⟩ | ⟨y, hscale, hfinite, hsign, hnear⟩
  · left
    rw [hread, hscale]
    exact ⟨rfl, hinfinity⟩
  · right
    rw [hread, hscale]
    refine ⟨_, rfl, ?_⟩
    cases negative with
    | true => exact ⟨hfinite, by simp [Binary.neg, hsign], hnear⟩
    | false => exact ⟨hfinite, hsign, hnear⟩

end SqlFragments.Json.Numeral
