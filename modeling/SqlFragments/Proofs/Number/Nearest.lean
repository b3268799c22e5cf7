import Mathlib.Algebra.Order.Field.Rat
import Mathlib.Algebra.Ring.Parity
import Mathlib.Data.Nat.Cast.Order.Field
import Mathlib.Order.Monotone.Basic
import Mathlib.Tactic.Linarith
import Mathlib.Tactic.Positivity
import Mathlib.Tactic.Ring
import SqlFragments.Number.Binary

/-!
# Rounding to the nearest magnitude

The magnitudes of a format increase with their codes, and between two neighbours lies
a middle.  A code is nearest to a quantity if the quantity lies between the middles
below and above its magnitude, and on a middle only if the code is even.  This says
nothing of shifts and remainders, and it determines the code.

Main results:

- `Format.isNearest_nearest`: rounding a quotient gives the nearest code.
- `Format.IsNearest.mono`: a greater quantity has no smaller nearest code, hence only
  one code is nearest.
- `Format.units_succ`: the step to the next magnitude, against the magnitude.
- `Format.isNearest_of_near`: what is near a magnitude in proportion is rounded to it.
-/

namespace SqlFragments.Number

attribute [local instance (high)] instPowNat

/-! ## Rounded quotients -/

section

variable {den : ℕ}

/-- A rounded quotient lies within one half of the quotient. -/
theorem roundDiv_bounds (num : ℕ) (h : 0 < den) :
    (roundDiv num den : ℚ) - 1 / 2 ≤ num / den ∧ (num / den : ℚ) ≤ roundDiv num den + 1 / 2 := by
  have hnear := roundDiv_near num h
  have hden : (0 : ℚ) < den := by exact_mod_cast h
  have hbelow : (2 : ℚ) * (roundDiv num den * den) ≤ 2 * num + den := by exact_mod_cast hnear.2
  have habove : (2 : ℚ) * num ≤ (2 * roundDiv num den + 1) * den := by exact_mod_cast hnear.1
  constructor
  · rw [le_div_iff₀ hden]
    linarith
  · rw [div_le_iff₀ hden]
    linarith

/-- A quotient in the middle between two whole numbers is rounded to the even one. -/
theorem even_roundDiv (num : ℕ) (h : 0 < den)
    (htie : (num / den : ℚ) = roundDiv num den - 1 / 2 ∨
      (num / den : ℚ) = roundDiv num den + 1 / 2) :
    Even (roundDiv num den) := by
  have hden : (den : ℚ) ≠ 0 := by exact_mod_cast h.ne'
  have hsplit := Nat.div_add_mod num den
  have hmod := Nat.mod_lt num h
  have hcomm := Nat.mul_comm den (num / den)
  have hnat : 2 * num + den = 2 * (roundDiv num den * den) ∨
      2 * num = 2 * (roundDiv num den * den) + den := by
    rcases htie with htie | htie
    · left
      rw [div_eq_iff hden] at htie
      have : (2 : ℚ) * num + den = 2 * (roundDiv num den * den) := by linarith
      exact_mod_cast this
    · right
      rw [div_eq_iff hden] at htie
      have : (2 : ℚ) * num = 2 * (roundDiv num den * den) + den := by linarith
      exact_mod_cast this
  unfold roundDiv at hnat ⊢
  dsimp only at hnat ⊢
  rw [Nat.even_iff]
  split_ifs at hnat ⊢ with hlow hhigh
  · omega
  · simp only [Nat.add_mul, Nat.one_mul] at hnat
    omega
  · omega

/-- A rounded quotient is the whole part of the quotient or its successor. -/
theorem roundDiv_range (num den : ℕ) :
    num / den ≤ roundDiv num den ∧ roundDiv num den ≤ num / den + 1 := by
  unfold roundDiv
  dsimp only
  split_ifs <;> omega

end

/-! ## Magnitudes -/

namespace Format

variable {f : Format}

/-- A code is a number of steps of equal size after a shift; each shift doubles the step. -/
theorem units_mul_add (f : Format) {shift m : ℕ} (hm : m ≤ 2 * 2 ^ f.fractionBits)
    (hshift : shift = 0 ∨ 2 ^ f.fractionBits ≤ m) :
    f.units (shift * 2 ^ f.fractionBits + m) = m * 2 ^ shift := by
  have hpos : 0 < 2 ^ f.fractionBits := Nat.two_pow_pos _
  unfold units
  dsimp only
  generalize 2 ^ f.fractionBits = size at hm hshift hpos ⊢
  rw [Nat.add_comm, Nat.add_mul_div_right _ _ hpos, Nat.add_mul_mod_self_right]
  rcases Nat.lt_or_ge m size with hlow | hhigh
  · obtain rfl : shift = 0 := by omega
    simp [Nat.div_eq_of_lt hlow, Nat.mod_eq_of_lt hlow]
  rcases Nat.lt_or_ge m (2 * size) with hinside | hend
  · have hdiv : m / size = 1 := Nat.div_eq_of_lt_le (by omega) (by omega)
    have hmod : m % size = m - size := by
      rw [Nat.mod_eq_sub_mod hhigh, Nat.mod_eq_of_lt (by omega)]
    have hone : 1 + shift - 1 = shift := by omega
    rw [hdiv, hmod, hone, if_neg (by omega), Nat.add_sub_cancel' hhigh]
  · obtain rfl : m = 2 * size := by omega
    have hone : 2 + shift - 1 = shift + 1 := by omega
    rw [Nat.mul_div_cancel _ hpos, Nat.mul_mod_left, hone, if_neg (by omega), Nat.pow_succ]
    ring

/-- Every code is a shift and a number of steps below the next shift. -/
theorem exists_steps (f : Format) (code : ℕ) :
    ∃ shift m, code = shift * 2 ^ f.fractionBits + m ∧ m < 2 * 2 ^ f.fractionBits ∧
      (shift = 0 ∨ 2 ^ f.fractionBits ≤ m) := by
  have hpos : 0 < 2 ^ f.fractionBits := Nat.two_pow_pos _
  generalize 2 ^ f.fractionBits = size at hpos
  have hsplit := Nat.div_add_mod code size
  have hmod := Nat.mod_lt code hpos
  rcases Nat.eq_zero_or_pos (code / size) with hzero | hexponent
  · rw [hzero] at hsplit
    exact ⟨0, code, by omega, by omega, Or.inl rfl⟩
  · refine ⟨code / size - 1, size + code % size, ?_, by omega, Or.inr (by omega)⟩
    have hmul : (code / size - 1) * size + size = size * (code / size) := by
      rw [← Nat.succ_mul, Nat.mul_comm]
      congr 1
      omega
    omega

/-- The next magnitude is greater by a step, and the step is not small against it. -/
theorem units_succ (f : Format) (code : ℕ) :
    ∃ step, 0 < step ∧ f.units (code + 1) = f.units code + step ∧
      f.units (code + 1) ≤ 2 * 2 ^ f.fractionBits * step := by
  obtain ⟨shift, m, rfl, hm, hshift⟩ := f.exists_steps code
  have hnext : f.units (shift * 2 ^ f.fractionBits + m + 1) = (m + 1) * 2 ^ shift :=
    f.units_mul_add (m := m + 1) (by omega) (by omega)
  refine ⟨2 ^ shift, Nat.two_pow_pos _, ?_, ?_⟩
  · rw [hnext, f.units_mul_add hm.le hshift]
    ring
  · rw [hnext]
    exact Nat.mul_le_mul_right _ hm

/-- Greater codes have more units. -/
theorem units_strictMono (f : Format) : StrictMono f.units := by
  refine strictMono_nat_of_lt_succ fun code => ?_
  obtain ⟨step, hpos, hstep, -⟩ := f.units_succ code
  omega

/-! ## Middles and nearest codes -/

/-- The middle between a magnitude and the next one, in units. -/
def middle (f : Format) (code : ℕ) : ℚ := (f.units code + f.units (code + 1)) / 2

/-- The middles between neighbours grow with their code. -/
theorem middle_strictMono (f : Format) : StrictMono f.middle := by
  refine strictMono_nat_of_lt_succ fun code => ?_
  have hcode : (f.units code : ℚ) < f.units (code + 1) := by
    exact_mod_cast f.units_strictMono code.lt_succ_self
  have hnext : (f.units (code + 1) : ℚ) < f.units (code + 1 + 1) := by
    exact_mod_cast f.units_strictMono (code + 1).lt_succ_self
  unfold middle
  linarith

/-- A code is nearest to a quantity of units: the quantity is between the middles
below and above the magnitude, and if it is one of them the code is even.  Nothing
bounds the quantity above infinity. -/
structure IsNearest (f : Format) (quantity : ℚ) (code : ℕ) : Prop where
  le_infinity : code ≤ f.infinity
  above : ∀ below, below + 1 = code → f.middle below ≤ quantity
  below : code < f.infinity → quantity ≤ f.middle code
  even_above : ∀ below, below + 1 = code → quantity = f.middle below → Even code
  even_below : code < f.infinity → quantity = f.middle code → Even code

/-- A greater quantity has no smaller nearest code. -/
theorem IsNearest.mono {q r : ℚ} {a b : ℕ} (ha : f.IsNearest q a) (hb : f.IsNearest r b)
    (hqr : q ≤ r) : a ≤ b := by
  by_contra hlt
  obtain ⟨below, rfl⟩ : ∃ below, a = below + 1 := ⟨a - 1, by omega⟩
  have hfinite : b < f.infinity := by
    have := ha.le_infinity
    omega
  have hb_le : f.middle b ≤ f.middle below := f.middle_strictMono.monotone (by omega)
  have hbelow : f.middle below ≤ q := ha.above below rfl
  have hr : r ≤ f.middle b := hb.below hfinite
  -- Both quantities are then the same middle, with neighbours that are both even.
  have hsame : b = below := f.middle_strictMono.injective (by linarith)
  have heven_a := ha.even_above below rfl (by linarith)
  have heven_b := hb.even_below hfinite (by linarith)
  subst hsame
  exact Nat.even_add_one.mp heven_a heven_b

/-- A rational has one nearest code. -/
theorem IsNearest.unique {q : ℚ} {a b : ℕ} (ha : f.IsNearest q a) (hb : f.IsNearest q b) :
    a = b :=
  (ha.mono hb le_rfl).antisymm (hb.mono ha le_rfl)

/-- A quantity strictly between the middles has the code between them as nearest. -/
theorem isNearest_of_strict {q : ℚ} {code : ℕ} (hfinite : code < f.infinity)
    (habove : ∀ below, below + 1 = code → f.middle below < q) (hbelow : q < f.middle code) :
    f.IsNearest q code where
  le_infinity := hfinite.le
  above := fun below h => (habove below h).le
  below := fun _ => hbelow.le
  even_above := fun below h heq => absurd heq (habove below h).ne'
  even_below := fun _ heq => absurd heq hbelow.ne

/-- A magnitude is nearest to itself. -/
theorem isNearest_units {code : ℕ} (hfinite : code < f.infinity) :
    f.IsNearest (f.units code) code := by
  refine isNearest_of_strict hfinite ?_ ?_
  · rintro below rfl
    have hstep : (f.units below : ℚ) < f.units (below + 1) := by
      exact_mod_cast f.units_strictMono below.lt_succ_self
    unfold middle
    linarith
  · have hstep : (f.units code : ℚ) < f.units (code + 1) := by
      exact_mod_cast f.units_strictMono code.lt_succ_self
    unfold middle
    linarith

/-- A quantity that differs from a magnitude by a small part of it has the code of the
magnitude as nearest. -/
theorem isNearest_of_near {q : ℚ} {code : ℕ} (hfinite : code < f.infinity)
    (hnear : |q - f.units code| * (4 * 2 ^ f.fractionBits) < f.units code) :
    f.IsNearest q code := by
  have hsize : (0 : ℚ) < 2 * 2 ^ f.fractionBits := by positivity
  refine isNearest_of_strict hfinite ?_ ?_
  · rintro below rfl
    obtain ⟨step, -, hstep, hle⟩ := f.units_succ below
    have hle : (f.units (below + 1) : ℚ) ≤ step * (2 * 2 ^ f.fractionBits) := by
      rw [mul_comm]
      exact_mod_cast hle
    have hdiff : (f.units (below + 1) - q) * 2 < step := by
      refine lt_of_mul_lt_mul_right ?_ hsize.le
      have habs := neg_abs_le (q - f.units (below + 1))
      nlinarith
    unfold middle
    rw [hstep] at hdiff ⊢
    push_cast at hdiff ⊢
    linarith
  · obtain ⟨step, hpos, hstep, hle⟩ := f.units_succ code
    have hle : (f.units code : ℚ) ≤ step * (2 * 2 ^ f.fractionBits) := by
      rw [mul_comm]
      exact_mod_cast (Nat.le_add_right _ step).trans (hstep ▸ hle)
    have hdiff : (q - f.units code) * 2 < step := by
      refine lt_of_mul_lt_mul_right ?_ hsize.le
      have habs := le_abs_self (q - f.units code)
      nlinarith
    unfold middle
    rw [hstep]
    push_cast
    linarith

/-! ## Rounding chooses the nearest code -/

/-- A quotient rounded to whole steps after a shift: the steps end where those of the next
shift begin, and with a shift the quotient is not below the first of them. -/
structure IsSteps (f : Format) (num den shift m : ℕ) : Prop where
  round : m = roundDiv num (den * 2 ^ shift)
  le : m ≤ 2 * 2 ^ f.fractionBits
  full : shift = 0 ∨ 2 ^ f.fractionBits * 2 ^ shift ≤ num / den

/-- The steps that rounding chooses. -/
theorem nearest_eq_steps (f : Format) (num den : ℕ) :
    ∃ shift m, f.nearest num den = min (shift * 2 ^ f.fractionBits + m) f.infinity ∧
      f.IsSteps num den shift m := by
  have hupper := Nat.lt_log2_self (n := num / den)
  have hrange := roundDiv_range num (den * 2 ^ ((num / den).log2 - f.fractionBits))
  rw [← Nat.div_div_eq_div_mul] at hrange
  refine ⟨(num / den).log2 - f.fractionBits, _, rfl, rfl, ?_, ?_⟩
  · have hfull : num / den < 2 * 2 ^ f.fractionBits * 2 ^ ((num / den).log2 - f.fractionBits) := by
      refine hupper.trans_le ?_
      rw [Nat.mul_assoc, ← Nat.pow_add, ← Nat.pow_succ']
      exact Nat.pow_le_pow_right Nat.two_pos (by omega)
    have hdiv := Nat.div_lt_of_lt_mul (Nat.mul_comm _ _ ▸ hfull)
    omega
  · by_cases hshift : (num / den).log2 - f.fractionBits = 0
    · exact Or.inl hshift
    · right
      have hne : num / den ≠ 0 := by
        intro hzero
        simp [hzero] at hshift
      have hlog := Nat.log2_self_le hne
      rwa [← Nat.pow_add, Nat.add_sub_cancel' (by omega)]

namespace IsSteps

variable {num den shift m code : ℕ}

/-- With a shift, the steps fill the significand. -/
theorem filled (h : f.IsSteps num den shift m) : shift = 0 ∨ 2 ^ f.fractionBits ≤ m := by
  refine h.full.imp_right fun hle => ?_
  have hrange := (roundDiv_range num (den * 2 ^ shift)).1
  rw [← h.round, ← Nat.div_div_eq_div_mul] at hrange
  refine le_trans ?_ hrange
  rwa [Nat.le_div_iff_mul_le (Nat.two_pow_pos _)]

/-- A code is even when its steps are. -/
theorem even (hbits : 0 < f.fractionBits) (hcode : code = shift * 2 ^ f.fractionBits + m)
    (hm : Even m) : Even code := by
  have hsize : Even (2 ^ f.fractionBits) := (Nat.even_pow' hbits.ne').mpr even_two
  rw [hcode]
  exact (hsize.mul_left shift).add hm

/-- The units of a code are its steps times the size of a step. -/
theorem units (h : f.IsSteps num den shift m) (hcode : code = shift * 2 ^ f.fractionBits + m) :
    (f.units code : ℚ) = m * 2 ^ shift := by
  rw [hcode, f.units_mul_add h.le h.filled]
  push_cast
  rfl

/-- The quotient is within half a step of the steps, and on a half only if their number is
even. -/
theorem bounds (h : f.IsSteps num den shift m) (hden : 0 < den) :
    (m - 1 / 2) * 2 ^ shift ≤ (num / den : ℚ) ∧ (num / den : ℚ) ≤ (m + 1 / 2) * 2 ^ shift ∧
      ((num / den : ℚ) = (m - 1 / 2) * 2 ^ shift ∨ (num / den : ℚ) = (m + 1 / 2) * 2 ^ shift →
        Even m) := by
  have hstep : (0 : ℚ) < 2 ^ shift := by positivity
  have hscaled : 0 < den * 2 ^ shift := by positivity
  have hsplit : (num / ((den * 2 ^ shift : ℕ) : ℚ)) = num / den / 2 ^ shift := by
    rw [div_div]
    push_cast
    rfl
  have hbounds := roundDiv_bounds num hscaled
  have htie := even_roundDiv num hscaled
  rw [← h.round, hsplit, le_div_iff₀ hstep, div_le_iff₀ hstep] at hbounds
  rw [← h.round, hsplit, div_eq_iff hstep.ne', div_eq_iff hstep.ne'] at htie
  exact ⟨hbounds.1, hbounds.2, htie⟩

/-- The next magnitude is at least one step greater. -/
theorem le_units_succ (h : f.IsSteps num den shift m)
    (hcode : code = shift * 2 ^ f.fractionBits + m) :
    ((m + 1) * 2 ^ shift : ℚ) ≤ f.units (code + 1) := by
  have hpos : 0 < 2 ^ f.fractionBits := Nat.two_pow_pos _
  have hfilled := h.filled
  have hnat : (m + 1) * 2 ^ shift ≤ f.units (shift * 2 ^ f.fractionBits + m + 1) := by
    rcases Nat.lt_or_ge m (2 * 2 ^ f.fractionBits) with hinside | hend
    · exact (f.units_mul_add (m := m + 1) (by omega) (by omega)).ge
    · -- The steps end here, and the next ones are twice as large.
      have hm : m = 2 * 2 ^ f.fractionBits := le_antisymm h.le hend
      have hnext : shift * 2 ^ f.fractionBits + m + 1 =
          (shift + 1) * 2 ^ f.fractionBits + (2 ^ f.fractionBits + 1) := by
        rw [hm]
        ring
      rw [hnext, f.units_mul_add (by omega) (Or.inr (by omega)), Nat.pow_succ', ← Nat.mul_assoc]
      exact Nat.mul_le_mul_right _ (by omega)
  rw [hcode]
  exact_mod_cast hnat

/-- The quotient is not above the middle to the next magnitude. -/
theorem le_middle (h : f.IsSteps num den shift m) (hbits : 0 < f.fractionBits) (hden : 0 < den)
    (hcode : code = shift * 2 ^ f.fractionBits + m) :
    (num / den : ℚ) ≤ f.middle code ∧ ((num / den : ℚ) = f.middle code → Even code) := by
  have hnext := h.le_units_succ hcode
  obtain ⟨-, hbelow, htie⟩ := h.bounds hden
  unfold middle
  rw [h.units hcode]
  refine ⟨by linarith, fun heq => even hbits hcode (htie (Or.inr ?_))⟩
  linarith

/-- The quotient is not below the middle to the magnitude before. -/
theorem middle_le (h : f.IsSteps num den shift m) (hbits : 0 < f.fractionBits) (hden : 0 < den)
    (hcode : code = shift * 2 ^ f.fractionBits + m) {below : ℕ} (hbelow : below + 1 = code) :
    f.middle below ≤ num / den ∧ ((num / den : ℚ) = f.middle below → Even code) := by
  have hunits := h.units hcode
  by_cases hfirst : shift ≠ 0 ∧ m = 2 ^ f.fractionBits
  · -- The first of the steps: the quotient is not below it, so the middle is too small.
    have hle : (m * 2 ^ shift : ℚ) ≤ num / den := by
      rw [hfirst.2, le_div_iff₀ (by exact_mod_cast hden)]
      exact_mod_cast (Nat.le_div_iff_mul_le hden).mp (h.full.resolve_left hfirst.1)
    have hprevious : (f.units below : ℚ) < m * 2 ^ shift := by
      rw [← hunits]
      exact_mod_cast f.units_strictMono (by omega)
    have hmiddle : f.middle below < num / den := by
      unfold middle
      rw [hbelow, hunits]
      linarith
    exact ⟨hmiddle.le, fun heq => absurd heq hmiddle.ne'⟩
  · have hfilled := h.filled
    have hle := h.le
    have hsize : 0 < 2 ^ f.fractionBits := Nat.two_pow_pos _
    have hpos : 0 < m := by
      by_contra hzero
      obtain rfl : shift = 0 := by omega
      omega
    have hprevious : (f.units below : ℚ) = (m - 1) * 2 ^ shift := by
      obtain rfl : below = shift * 2 ^ f.fractionBits + (m - 1) := by omega
      rw [f.units_mul_add (by omega) (by omega)]
      push_cast [Nat.cast_sub hpos]
      rfl
    obtain ⟨habove, -, htie⟩ := h.bounds hden
    unfold middle
    rw [hbelow, hunits, hprevious]
    refine ⟨by linarith, fun heq => even hbits hcode (htie (Or.inl ?_))⟩
    linarith

end IsSteps

/-- Rounding a quotient gives the nearest code. -/
theorem isNearest_nearest (f : Format) (hbits : 0 < f.fractionBits) (num : ℕ) {den : ℕ}
    (hden : 0 < den) : f.IsNearest (num / den) (f.nearest num den) := by
  obtain ⟨shift, m, heq, hsteps⟩ := f.nearest_eq_steps num den
  have hbelow := hsteps.le_middle hbits hden rfl
  have habove : ∀ below, below + 1 = shift * 2 ^ f.fractionBits + m →
      f.middle below ≤ num / den ∧
        ((num / den : ℚ) = f.middle below → Even (shift * 2 ^ f.fractionBits + m)) :=
    fun _ => hsteps.middle_le hbits hden rfl
  generalize shift * 2 ^ f.fractionBits + m = code at heq habove hbelow
  rcases Nat.lt_or_ge f.infinity code with hover | hfinite
  · -- Beyond infinity the middle below infinity is below the middle that bounds the quotient.
    rw [heq, Nat.min_eq_right hover.le]
    have hstrict : ∀ below, below + 1 = f.infinity → f.middle below < num / den := by
      intro below hbelow
      have hlt : f.middle below < f.middle (code - 1) := f.middle_strictMono (by omega)
      exact hlt.trans_le (habove (code - 1) (by omega)).1
    exact ⟨le_rfl, fun below h => (hstrict below h).le, fun h => absurd h (lt_irrefl _),
      fun below h heq => absurd heq (hstrict below h).ne', fun h => absurd h (lt_irrefl _)⟩
  · rw [heq, Nat.min_eq_left hfinite]
    exact ⟨hfinite, fun below h => (habove below h).1, fun _ => hbelow.1,
      fun below h => (habove below h).2, fun _ => hbelow.2⟩

/-- A greater quotient has no smaller rounding. -/
theorem nearest_mono (f : Format) (hbits : 0 < f.fractionBits) {num den num' den' : ℕ}
    (hden : 0 < den) (hden' : 0 < den') (h : num * den' ≤ num' * den) :
    f.nearest num den ≤ f.nearest num' den' := by
  refine (f.isNearest_nearest hbits num hden).mono (f.isNearest_nearest hbits num' hden') ?_
  have hq : (0 : ℚ) < den := by exact_mod_cast hden
  have hq' : (0 : ℚ) < den' := by exact_mod_cast hden'
  rw [div_le_div_iff₀ hq hq']
  exact_mod_cast h

/-- Doubles have fraction bits. -/
theorem double_fractionBits_pos : 0 < double.fractionBits := by decide

/-- A magnitude is rounded to its own code. -/
theorem nearest_units (f : Format) (hbits : 0 < f.fractionBits) {code : ℕ}
    (hfinite : code < f.infinity) : f.nearest (f.units code) 1 = code := by
  have h := f.isNearest_nearest hbits (f.units code) Nat.one_pos
  rw [Nat.cast_one, div_one] at h
  exact h.unique (isNearest_units hfinite)

end Format

namespace Binary

variable {f : Format} {x : Binary f}

/-- A finite code is one below infinity. -/
theorem isFinite_iff : x.isFinite = true ↔ x.code < f.infinity := decide_eq_true_iff

/-- A code above zero has units. -/
theorem units_pos (hpos : x.isZero = false) : 0 < x.units := by
  have hcode : 0 < x.code := Nat.pos_of_ne_zero (by simpa [isZero] using hpos)
  exact Nat.zero_lt_of_lt (f.units_strictMono hcode)

end Binary

end SqlFragments.Number
