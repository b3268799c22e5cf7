import SqlFragments.Proofs.Json.Scaling
import SqlFragments.Proofs.Json.Spelling

/-!
# Numbers as numerals

An integer is written as a numeral without fraction and exponent, and a finite
double-precision number as one with a fraction or an exponent.  So the two kinds are
told apart when they are read: the first stands for the same integer, and the second
for a finite number of the same sign.

Main results:

- `Numeral.read_ofInt`: the numeral of an integer in either 64-bit range stands for it.
- `Numeral.significand_ofScientific`: the digits of a layout are those of the decimal and
  some zeros.
- `Numeral.exists_read_ofFloat`: the numeral of a finite number stands for a finite number
  with the same sign.
-/

namespace SqlFragments.Json.Numeral

open Number

attribute [local instance (high)] instPowNat

/-! ## Integers -/

/-- The numeral of an integer. -/
def ofInt (i : ℤ) : Numeral := ⟨decide (i < 0), digits i.natAbs, [], none⟩

/-- The numeral of an integer is its decimal text. -/
theorem text_ofInt (i : ℤ) : (ofInt i).text = decimalInt i := by
  by_cases hsign : i < 0 <;>
    simp [text, ofInt, fractionText, exponentText, decimalInt, decimal, hsign]

/-- The numeral of an integer is in the form in which numerals are written. -/
theorem isWritten_ofInt (i : ℤ) : (ofInt i).IsWritten where
  whole_digits := fun _ hd => lt_ten_of_mem_digits hd
  fraction_digits := fun _ hd => absurd hd List.not_mem_nil
  leading := by
    rcases Nat.eq_zero_or_pos i.natAbs with hzero | hpos
    · left
      change digits i.natAbs = [0]
      rw [hzero, digits, if_pos (by decide)]
    · exact Or.inr (exists_digits_cons hpos)
  exponent_digits := fun _ _ h => absurd h (Option.some_ne_none _).symm

/-- The numeral of an integer between the least signed 64-bit integer and the greatest word
stands for that integer. -/
theorem read_ofInt {i : ℤ} (hlow : -2 ^ (63 : ℕ) ≤ i) (hhigh : i < 2 ^ (64 : ℕ)) :
    (ofInt i).read = some (.integer i) := by
  have hfits : i.natAbs < wordSize := by
    unfold wordSize
    omega
  have hinteger : ((ofInt i).isInteger && decide (i.natAbs < wordSize)) = true := by
    rw [decide_eq_true hfits]
    rfl
  unfold read
  simp only [ofInt, ofDigits_digits] at hinteger ⊢
  rw [if_pos hinteger]
  by_cases hsign : i < 0
  · rw [if_pos (decide_eq_true hsign), if_neg (by omega)]
    congr 2
    omega
  · rw [if_neg (by simpa using hsign)]
    congr 2
    omega

/-! ## Decimals -/

/-- The numeral of a decimal with the sign: its digits stand around the point where the
rounded layout writes them in place, and after the first one otherwise. -/
def ofScientific (negative : Bool) (d : Scientific) : Numeral :=
  let whole := d.exponent.toNat + 1
  if Layout.rounded.inPlace d.exponent then
    if d.exponent < 0 then
      ⟨negative, [0], List.replicate (-d.exponent - 1).toNat 0 ++ d.row, none⟩
    else if d.row.length ≤ whole then
      ⟨negative, d.row ++ List.replicate (whole - d.row.length) 0, [0], none⟩
    else ⟨negative, d.row.take whole, d.row.drop whole, none⟩
  else ⟨negative, d.row.take 1, d.row.drop 1,
    some (decide (d.exponent < 0), digits d.exponent.natAbs)⟩

/-- A fraction with digits is written behind a point. -/
theorem fractionText_of_ne_nil {row : List ℕ} (hne : row ≠ []) :
    fractionText row = '.' :: writeDigits row :=
  if_neg (by simpa using hne)

/-- An exponent is written with either sign. -/
theorem exponentText_eq (exponent : ℤ) :
    exponentText (some (decide (exponent < 0), digits exponent.natAbs)) =
      'e' :: (if 0 ≤ exponent && Layout.rounded.signsExponent then ['+'] else []) ++
        decimalInt exponent := by
  by_cases hsign : exponent < 0
  · have hnonneg : ¬0 ≤ exponent := by omega
    simp [exponentText, decimalInt, decimal, hsign, hnonneg]
  · have hnonneg : 0 ≤ exponent := by omega
    simp [exponentText, decimalInt, decimal, hsign, hnonneg, Layout.rounded]

/-- The text of the numeral is what the layout writes, after the sign. -/
theorem text_ofScientific (negative : Bool) {d : Scientific} (hne : d.row ≠ []) :
    (ofScientific negative d).text = (if negative then ['-'] else []) ++
      (if Layout.rounded.inPlace d.exponent then Layout.rounded.writeInPlace d
        else Layout.rounded.writeScaled d) := by
  by_cases hplace : Layout.rounded.inPlace d.exponent = true
  · rw [if_pos hplace]
    by_cases hsign : d.exponent < 0
    · have hrow : List.replicate (-d.exponent - 1).toNat 0 ++ d.row ≠ [] := by simp [hne]
      simp only [text, ofScientific, if_pos hplace, if_pos hsign, Layout.writeInPlace,
        fractionText_of_ne_nil hrow, exponentText, List.append_nil]
      rfl
    by_cases hshort : d.row.length ≤ d.exponent.toNat + 1
    · simp only [text, ofScientific, if_pos hplace, if_neg hsign, if_pos hshort,
        Layout.writeInPlace]
      rfl
    · have hrow : d.row.drop (d.exponent.toNat + 1) ≠ [] := mt List.drop_eq_nil_iff.mp hshort
      simp only [text, ofScientific, if_pos hplace, if_neg hsign, if_neg hshort,
        Layout.writeInPlace, fractionText_of_ne_nil hrow, exponentText, List.append_nil]
  · rw [if_neg hplace]
    simp only [text, ofScientific, if_neg hplace, Layout.writeScaled, exponentText_eq,
      fractionText, List.append_assoc, List.cons_append]

/-- The numeral of a decimal in normal form is in the form in which numerals are written. -/
theorem isWritten_ofScientific (negative : Bool) {d : Scientific} (hd : d.IsNormal) :
    (ofScientific negative d).IsWritten := by
  obtain ⟨first, rest, hrow, hfirst⟩ := hd.leading
  have hzeros : ∀ count, ∀ e ∈ List.replicate count 0, e < 10 := fun _ e he => by
    rw [List.eq_of_mem_replicate he]
    decide
  unfold ofScientific
  dsimp only
  split_ifs with hplace hsign hshort
  · exact ⟨hzeros 1, fun e he => (List.mem_append.mp he).elim (hzeros _ e) (hd.digit e),
      Or.inl rfl, by simp⟩
  · exact ⟨fun e he => (List.mem_append.mp he).elim (hd.digit e) (hzeros _ e), hzeros 1,
      Or.inr ⟨first, _, by rw [hrow]; rfl, hfirst⟩, by simp⟩
  · exact ⟨fun e he => hd.digit e (List.mem_of_mem_take he),
      fun e he => hd.digit e (List.mem_of_mem_drop he),
      Or.inr ⟨first, _, by rw [hrow]; rfl, hfirst⟩, by simp⟩
  · refine ⟨fun e he => hd.digit e (List.mem_of_mem_take he),
      fun e he => hd.digit e (List.mem_of_mem_drop he),
      Or.inr ⟨first, _, by rw [hrow]; rfl, hfirst⟩, ?_⟩
    rintro sign row heq
    obtain ⟨-, rfl⟩ := Prod.mk.inj (Option.some.inj heq)
    exact ⟨digits_ne_nil _, fun e he => lt_ten_of_mem_digits he⟩

/-- A numeral stands for less than the power of ten of its number of digits. -/
theorem IsWritten.significand_lt {n : Numeral} (h : n.IsWritten) :
    n.significand < 10 ^ (n.whole.length + n.fraction.length) := by
  rw [← List.length_append]
  refine ofDigits_lt fun d hd => ?_
  rcases List.mem_append.mp hd with hd | hd
  · exact h.whole_digits d hd
  · exact h.fraction_digits d hd

/-- The exponent of a numeral is read from its sign and digits. -/
theorem writtenExponent_digits (negative : Bool) (whole fraction : List ℕ) (exponent : ℤ) :
    writtenExponent ⟨negative, whole, fraction,
      some (decide (exponent < 0), digits exponent.natAbs)⟩ = exponent := by
  simp only [writtenExponent, ofDigits_digits, decide_eq_true_eq]
  split <;> omega

/-- The digits of the numeral are those of the decimal, with zeros after them only where the
layout fills up a whole number of at most seventeen digits. -/
theorem significand_ofScientific (negative : Bool) {d : Scientific} (hd : d.IsNormal) :
    ∃ zeros : ℕ, (ofScientific negative d).significand = ofDigits d.row * 10 ^ zeros ∧
      (ofScientific negative d).scale = d.exponent - d.row.length + 1 - zeros ∧
      (zeros = 0 ∨ (ofScientific negative d).significand < 10 ^ 17) := by
  have hlength : 1 ≤ d.row.length := by
    obtain ⟨first, rest, hrow, -⟩ := hd.leading
    simp [hrow]
  have hlt := (isWritten_ofScientific negative hd).significand_lt
  unfold ofScientific at hlt ⊢
  dsimp only at hlt ⊢
  split_ifs at hlt ⊢ with hplace hsign hshort
  · refine ⟨0, ?_, ?_, Or.inl rfl⟩
    · rw [significand, ← List.append_assoc, ofDigits_append, ← List.replicate_one,
        List.replicate_append_replicate, ofDigits_zeros]
      omega
    · simp only [scale, writtenExponent, List.length_append, List.length_replicate]
      omega
  · -- The last digit before the point counts one, and one zero stands after the point.
    have hplace : d.exponent ≤ 15 := by
      simp only [Layout.rounded, Bool.and_eq_true, decide_eq_true_eq] at hplace
      exact hplace.2
    refine ⟨d.exponent.toNat + 1 - d.row.length + 1, ?_, ?_, Or.inr ?_⟩
    · rw [significand, ofDigits_append_singleton, ofDigits_append, ofDigits_zeros,
        List.length_replicate, Nat.pow_succ]
      ring
    · simp only [scale, writtenExponent, List.length_singleton]
      omega
    · refine hlt.trans_le (Nat.pow_le_pow_right (by decide) ?_)
      simp only [List.length_append, List.length_replicate, List.length_singleton]
      omega
  · refine ⟨0, ?_, ?_, Or.inl rfl⟩
    · rw [significand, List.take_append_drop, Nat.pow_zero, Nat.mul_one]
    · simp only [scale, writtenExponent, List.length_drop]
      omega
  · refine ⟨0, ?_, ?_, Or.inl rfl⟩
    · rw [significand, List.take_append_drop, Nat.pow_zero, Nat.mul_one]
    · rw [scale, writtenExponent_digits, List.length_drop]
      omega

/-- The digits of the numeral and their power of ten stand for the decimal. -/
theorem value_ofScientific (negative : Bool) {d : Scientific} (hd : d.IsNormal) :
    ((ofScientific negative d).significand * 10 ^ (ofScientific negative d).scale : ℚ) =
      d.value := by
  obtain ⟨zeros, hsignificand, hscale, -⟩ := significand_ofScientific negative hd
  rw [hsignificand, hscale, Scientific.value, zpow_sub₀ (by norm_num), zpow_natCast,
    Nat.cast_mul, Nat.cast_pow, Nat.cast_ofNat]
  field_simp

/-- The numeral of a decimal of at most seventeen digits has at most as many. -/
theorem significand_ofScientific_bounds (negative : Bool) {d : Scientific} (hd : d.IsNormal)
    (hdigits : ofDigits d.row ≤ 10 ^ 17) :
    0 < (ofScientific negative d).significand ∧
      (ofScientific negative d).significand ≤ 10 ^ 17 := by
  obtain ⟨zeros, hsignificand, -, hrange⟩ := significand_ofScientific negative hd
  constructor
  · rw [hsignificand]
    exact Nat.mul_pos hd.ofDigits_pos (ten_pow_pos _)
  · rcases hrange with rfl | hlt
    · rwa [hsignificand, Nat.pow_zero, Nat.mul_one]
    · exact hlt.le

/-- The numeral of a decimal has a fraction or an exponent. -/
theorem isInteger_ofScientific (negative : Bool) {d : Scientific} (hd : d.IsNormal) :
    (ofScientific negative d).isInteger = false := by
  obtain ⟨first, rest, hrow, -⟩ := hd.leading
  unfold ofScientific
  dsimp only
  split_ifs with hplace hsign hshort
  · simp [isInteger, hrow]
  · rfl
  · have hdrop : d.row.drop (d.exponent.toNat + 1) ≠ [] := mt List.drop_eq_nil_iff.mp hshort
    simp [isInteger, hdrop]
  · simp [isInteger]

@[simp]
theorem negative_ofScientific (negative : Bool) (d : Scientific) :
    (ofScientific negative d).negative = negative := by
  unfold ofScientific
  dsimp only
  split_ifs <;> rfl

/-! ## Finite numbers -/

/-- The numeral of a finite number. -/
def ofFloat (x : Binary64) : Numeral :=
  if x.isZero then ⟨x.negative, [0], [0], none⟩ else ofScientific x.negative (shortest .even x)

section

variable {x : Binary64}

/-- A zero is written as one digit on each side of the point. -/
theorem ofFloat_of_isZero (hzero : x.isZero = true) :
    ofFloat x = ⟨x.negative, [0], [0], none⟩ := if_pos hzero

/-- Any other number is written as its shortest decimal. -/
theorem ofFloat_of_ne_zero (hzero : x.isZero = false) :
    ofFloat x = ofScientific x.negative (shortest .even x) :=
  if_neg (by simp [hzero])

/-- The text of the numeral is the written number. -/
theorem text_ofFloat (hfinite : x.isFinite = true) :
    (ofFloat x).text = Layout.rounded.writeFinite x := by
  have hmagnitude : Layout.rounded.writeFinite x =
      (if x.negative then ['-'] else []) ++ Layout.rounded.writeMagnitude x := by
    unfold Layout.writeFinite
    split <;> rfl
  rw [hmagnitude]
  unfold Layout.writeMagnitude
  cases hzero : x.isZero with
  | true =>
    rw [ofFloat_of_isZero hzero]
    rfl
  | false =>
    obtain ⟨first, rest, hrow, -⟩ := (shortest_readsBack .even hfinite hzero).1.leading
    rw [ofFloat_of_ne_zero hzero, text_ofScientific _ (by simp [hrow])]
    rfl

/-- The numeral of a finite number is in the form in which numerals are written. -/
theorem isWritten_ofFloat (hfinite : x.isFinite = true) : (ofFloat x).IsWritten := by
  cases hzero : x.isZero with
  | true =>
    rw [ofFloat_of_isZero hzero]
    exact ⟨by simp, by simp, Or.inl rfl, by simp⟩
  | false =>
    rw [ofFloat_of_ne_zero hzero]
    exact isWritten_ofScientific _ (shortest_readsBack .even hfinite hzero).1

/-- The numeral of a finite number has a point or an exponent. -/
theorem isInteger_ofFloat (hfinite : x.isFinite = true) : (ofFloat x).isInteger = false := by
  cases hzero : x.isZero with
  | true =>
    rw [ofFloat_of_isZero hzero]
    rfl
  | false =>
    rw [ofFloat_of_ne_zero hzero]
    exact isInteger_ofScientific _ (shortest_readsBack .even hfinite hzero).1

/-- The digits of a written decimal and their power of ten are in the range that is read. -/
theorem exists_readFloat_ofScientific (hfinite : x.isFinite = true) (hzero : x.isZero = false) :
    ∃ y, (ofScientific x.negative (shortest .even x)).readFloat = some y ∧ y.isFinite = true ∧
      y.negative = x.negative := by
  obtain ⟨hnormal, hdigits, -⟩ := shortest_readsBack .even hfinite hzero
  obtain ⟨hpos, hfew⟩ := significand_ofScientific_bounds x.negative hnormal hdigits
  have hvalue := value_shortest_le hfinite hzero
  rw [← value_ofScientific x.negative hnormal] at hvalue
  obtain ⟨y, hread, hy, hsign⟩ := exists_readFloat hfew (fun _ => hpos) hvalue
  exact ⟨y, hread, hy, hsign.trans (negative_ofScientific _ _)⟩

/-- The numeral of a finite number stands for a finite number with the same sign. -/
theorem exists_read_ofFloat (hfinite : x.isFinite = true) :
    ∃ y, (ofFloat x).read = some (.float y) ∧ y.isFinite = true ∧ y.negative = x.negative := by
  have hfloat : ∃ y, (ofFloat x).readFloat = some y ∧ y.isFinite = true ∧
      y.negative = x.negative := by
    cases hzero : x.isZero with
    | true =>
      rw [ofFloat_of_isZero hzero]
      have hscale : ¬0 ≤ scale ⟨x.negative, [0], [0], none⟩ := by simp [scale, writtenExponent]
      have hsignificand : significand ⟨x.negative, [0], [0], none⟩ = 0 := rfl
      refine exists_readFloat (Nat.zero_le _) (fun h => absurd h hscale) ?_
      rw [hsignificand, Nat.cast_zero, zero_mul]
      exact Nat.cast_nonneg _
    | false =>
      rw [ofFloat_of_ne_zero hzero]
      exact exists_readFloat_ofScientific hfinite hzero
  obtain ⟨y, hy, hspec⟩ := hfloat
  refine ⟨y, ?_, hspec⟩
  unfold read
  simp [isInteger_ofFloat hfinite, hy]

end

end SqlFragments.Json.Numeral
