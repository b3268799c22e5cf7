import SqlFragments.Proofs.Json.Integers
import SqlFragments.Proofs.Json.ScalingErrors

/-!
# Numbers are read back from their text

A finite number is written as its shortest decimal, which rounds to it.  Reading does not
round the decimal, it rounds the digits, the power of ten and the product of both.  So what
is read back can be another number, but it is at most two codes away, and it is the number
itself where the digits and the power of ten are exact.

Main results:

- `exists_shortest_fine`: a shortest decimal has no digits below the least positive number.
- `Value.floats_read_back_within_two_codes`: what is read for the text of a number.
- `Value.float_not_read_back`: a number that is read back two codes away.
-/

namespace SqlFragments

open Number

attribute [local instance (high)] instPowNat

/-! ## Places of shortest decimals -/

namespace Number

/-- A quantity that differs from a magnitude by less than half a unit is rounded to it. -/
theorem Format.isNearest_of_abs_sub_lt {f : Format} {q : ℚ} {code : ℕ}
    (hfinite : code < f.infinity) (hnear : |q - f.units code| < 1 / 2) : f.IsNearest q code := by
  obtain ⟨hbelow, habove⟩ := abs_lt.mp hnear
  refine isNearest_of_strict hfinite ?_ ?_
  · rintro below rfl
    have hstep : (f.units below + 1 : ℚ) ≤ f.units (below + 1) := by
      exact_mod_cast f.units_strictMono below.lt_succ_self
    unfold middle
    linarith
  · have hstep : (f.units code + 1 : ℚ) ≤ f.units (code + 1) := by
      exact_mod_cast f.units_strictMono code.lt_succ_self
    unfold middle
    linarith

/-- A grid finer than the unit has a decimal that rounds to the number. -/
theorem exists_shortestOn_of_fine {f : Format} (hbits : 0 < f.fractionBits) (tie : Tie)
    {x : Binary f} (hfinite : x.isFinite = true) {exponent : ℤ}
    (hfine : (10 ^ exponent * f.one : ℚ) < 1) : ∃ n, shortestOn tie x exponent = some n := by
  refine exists_shortestOn_of_readsBack ?_
  have hnear := nearerNeighbour_onGrid tie x.units (Nat.two_pow_pos f.unitExponent) exponent
  have hgrid : (0 : ℚ) < 10 ^ exponent * f.one := mul_pos (by positivity) f.one_pos
  rw [readsBack_iff hbits]
  refine Format.isNearest_of_abs_sub_lt (Binary.isFinite_iff.mp hfinite) ?_
  refine (abs_gridPoint_sub f.one_pos exponent).trans_lt ?_
  exact (mul_le_mul_of_nonneg_right hnear hgrid.le).trans_lt (by linarith)

/-- The unit is smaller than five steps of the grid, and it is not smaller than one. -/
theorem fine_of_le {exponent : ℤ} (h : exponent ≤ -324) :
    (10 ^ exponent * Format.double.one : ℚ) < 1 := by
  have hnat : Format.double.one < 10 ^ 324 := by decide +kernel
  have hone := Format.double.one_pos
  have hle : (10 : ℚ) ^ exponent ≤ 10 ^ (-324 : ℤ) := zpow_le_zpow_right₀ (by norm_num) h
  refine (mul_le_mul_of_nonneg_right hle hone.le).trans_lt ?_
  generalize Format.double.one = one at hnat ⊢
  have honeq : (one : ℚ) < 10 ^ 324 := by exact_mod_cast hnat
  rw [zpow_neg, inv_mul_lt_iff₀ (by positivity), mul_one]
  exact_mod_cast honeq

/-- The least positive number has its leading digit at a place that is searched. -/
theorem le_leadingExponent {x : Binary64} (hpos : x.isZero = false) :
    -324 ≤ leadingExponent x.units Format.double.one := by
  by_contra hlt
  have hone : 0 < Format.double.one := Nat.two_pow_pos _
  have hunits : (1 : ℚ) ≤ x.units := by exact_mod_cast Binary.units_pos hpos
  have hhigh := (leadingExponent_bounds (Binary.units_pos hpos) hone).2
  have hfine : (10 ^ (leadingExponent x.units Format.double.one + 1) * Format.double.one : ℚ) < 1 :=
    fine_of_le (by omega)
  rw [div_lt_iff₀ Format.double.one_pos] at hhigh
  linarith

/-- The places of the decimal that is chosen end before the unit is passed. -/
theorem exists_shortest_fine (tie : Tie) {x : Binary64} (hfinite : x.isFinite = true)
    (hpos : x.isZero = false) : ∃ (exponent : ℤ) (n : ℕ),
      shortest tie x = Scientific.ofNat n exponent ∧ -324 ≤ exponent := by
  have hlead := le_leadingExponent hpos
  have hfine : ∀ count : ℕ, leadingExponent x.units Format.double.one - count ≤ -324 →
      ∃ n, shortestOn tie x (leadingExponent x.units Format.double.one - count) = some n :=
    fun _ h => exists_shortestOn_of_fine Format.double_fractionBits_pos tie hfinite (fine_of_le h)
  unfold shortest
  generalize leadingExponent x.units Format.double.one = leading at *
  dsimp only
  cases hfound : (List.range maxDigits).findSome? fun (count : ℕ) =>
      (shortestOn tie x (leading - count)).map (Scientific.ofNat · (leading - count)) with
  | none => exact ⟨leading, x.units, rfl, hlead⟩
  | some d =>
    obtain ⟨before, count, after, hrange, hcount, hbefore⟩ := List.findSome?_eq_some_iff.mp hfound
    obtain ⟨n, -, rfl⟩ := Option.map_eq_some_iff.mp hcount
    refine ⟨leading - count, n, rfl, ?_⟩
    by_contra hlt
    -- The grid before is still finer than the unit, and so the search ended there.
    obtain ⟨previous, rfl⟩ : ∃ previous, count = previous + 1 := ⟨count - 1, by omega⟩
    obtain ⟨n, hn⟩ := hfine previous (by push_cast at hlt; omega)
    have hmem : previous ∈ before := by
      rw [List.range_eq_range'] at hrange
      obtain ⟨length, -, rfl, hrest⟩ := List.range'_eq_append_iff.mp hrange
      obtain ⟨hnext, -⟩ := List.range'_eq_cons_iff.mp hrest.symm
      rw [List.mem_range'_1]
      omega
    have hnone := hbefore previous hmem
    rw [hn] at hnone
    cases hnone

/-- Leaving out zeros at the end moves the last place up. -/
theorem Scientific.le_lastPlace_ofNat (n : ℕ) (exponent : ℤ) :
    exponent ≤
      (Scientific.ofNat n exponent).exponent - (Scientific.ofNat n exponent).row.length + 1 := by
  obtain ⟨zeros, heq⟩ := digits_eq_row_append n exponent
  have hlength := congrArg List.length heq
  rw [List.length_append, List.length_replicate] at hlength
  change exponent ≤ exponent + (digits n).length - 1 - (ofNat n exponent).row.length + 1
  omega

end Number

/-! ## Numbers of written numerals -/

namespace Json.Numeral

/-- The last digit of the numeral of a decimal has the place of the decimal's last digit, or it
is a zero after the point. -/
theorem scale_ofScientific (negative : Bool) {d : Scientific} (hd : d.IsNormal) :
    (ofScientific negative d).scale = d.exponent - d.row.length + 1 ∨
      (ofScientific negative d).scale = -1 := by
  obtain ⟨first, rest, hrow, -⟩ := hd.leading
  have hlength : 1 ≤ d.row.length := by simp [hrow]
  unfold ofScientific
  dsimp only
  split_ifs with hplace hsign hshort
  · left
    simp only [scale, writtenExponent, List.length_append, List.length_replicate]
    omega
  · exact .inr rfl
  · left
    simp only [scale, writtenExponent, List.length_drop]
    omega
  · left
    rw [scale, writtenExponent_digits, List.length_drop]
    omega

/-- The numeral of a number other than zero is read nearly, for the decimal that rounds to the
number. -/
theorem near_of_readFloat {x y : Binary64} (hfinite : x.isFinite = true) (hpos : x.isZero = false)
    (hy : y.isFinite = true) (hread : (ofFloat x).readFloat = some y) :
    y.code ≤ x.code + 2 ∧ x.code ≤ y.code + 2 ∧
      ((ofFloat x).significand ≤ 2 ^ 53 → (ofFloat x).scale.natAbs ≤ 22 → y.code = x.code) := by
  obtain ⟨hnormal, hdigits, hnearest⟩ := shortest_readsBack .even hfinite hpos
  obtain ⟨exponent, n, hshortest, hfine⟩ := exists_shortest_fine .even hfinite hpos
  have hplace := Scientific.le_lastPlace_ofNat n exponent
  rw [← hshortest] at hplace
  rw [← value_ofScientific x.negative hnormal] at hnearest
  obtain ⟨hpositive, hfew⟩ := significand_ofScientific_bounds x.negative hnormal hdigits
  have hscale := scale_ofScientific x.negative hnormal
  rw [ofFloat_of_ne_zero hpos] at hread ⊢
  obtain ⟨r, hr, hwithin, hexact⟩ := isNearlyRead_readFloat hpositive hfew (by omega) hread
  refine ⟨?_, ?_, ?_⟩
  · exact hnearest.le_add_two hr (Binary.isFinite_iff.mp hfinite) hwithin.ge
  · exact hr.le_add_two hnearest (Binary.isFinite_iff.mp hy) hwithin.le
  · intro hsmall hscale
    rw [hexact hsmall hscale] at hr
    exact hr.unique hnearest

/-- The numeral of a zero is read as that zero. -/
theorem read_ofFloat_zero {x : Binary64} (hzero : x.isZero = true) :
    (ofFloat x).read = some (.float x) := by
  have hall : ∀ negative, (Numeral.mk negative [0] [0] none).read =
      some (.float ⟨negative, 0, by decide⟩) := by decide +kernel
  obtain ⟨negative, code, hlt⟩ := x
  obtain rfl : code = 0 := beq_iff_eq.mp hzero
  rw [ofFloat_of_isZero hzero]
  exact hall negative

/-- The numeral of a finite number is read as a number of the same sign that is at most two codes
away, and as the number itself if its digits and its power of ten are exact. -/
theorem exists_read_near {x : Binary64} (hfinite : x.isFinite = true) :
    ∃ y, (ofFloat x).read = some (.float y) ∧ y.isFinite = true ∧ y.negative = x.negative ∧
      y.code ≤ x.code + 2 ∧ x.code ≤ y.code + 2 ∧
      ((ofFloat x).significand ≤ 2 ^ 53 → (ofFloat x).scale.natAbs ≤ 22 → y.code = x.code) := by
  obtain ⟨y, hread, hy, hsign⟩ := exists_read_ofFloat hfinite
  refine ⟨y, hread, hy, hsign, ?_⟩
  cases hzero : x.isZero with
  | true =>
    have hsame := (read_ofFloat_zero hzero).symm.trans hread
    obtain rfl := Reading.float.inj (Option.some.inj hsame)
    exact ⟨by omega, by omega, fun _ _ => rfl⟩
  | false =>
    have hfloat : (ofFloat x).readFloat = some y := by
      simpa [read, isInteger_ofFloat hfinite] using hread
    exact near_of_readFloat hfinite hzero hy hfloat

end Json.Numeral

namespace Value

/-- The text of a finite number is that of its numeral. -/
theorem parse_toJson_float {x : Binary64} (hx : x.isFinite = true) :
    Json.parse (Value.float x).toJson = some (.number (.ofFloat x)) := by
  rw [← Json.parse_text (Json.Numeral.isWritten_ofFloat hx), Json.Numeral.text_ofFloat hx, toJson,
    Json.writeValue, Json.writeFloat, if_pos hx]

/-- Every finite number is read back from its text as a finite number with its sign, and both
readings give the same number.  Its code differs from that of the number by at most two, and
it is the number itself if the digits of the text, without the point, are a whole number of at
most two to the fifty-third and the last of them counts a power of ten from -22 to 22. -/
theorem floats_read_back_within_two_codes (x : Binary64) (hx : x.isFinite = true) :
    ∃ (n : Json.Numeral) (y : Binary64),
      Json.parse (Value.float x).toJson = some (.number n) ∧
      decodeText (Value.float x).toJson = some (.float y) ∧
      bindText (Value.float x).toJson = .ok (.float y) ∧
      y.isFinite = true ∧ y.negative = x.negative ∧
      y.code ≤ x.code + 2 ∧ x.code ≤ y.code + 2 ∧
      (n.significand ≤ 2 ^ 53 → n.scale.natAbs ≤ 22 → y = x) := by
  have hparse := parse_toJson_float hx
  obtain ⟨y, hread, hy, hsign, hbelow, habove, hexact⟩ := Json.Numeral.exists_read_near hx
  obtain ⟨hbind, hdecode⟩ := readings_of_float hparse hread
  exact ⟨_, y, hparse, hdecode, hbind, hy, hsign, hbelow, habove, fun hsmall hscale =>
    Binary.ext_of_code hsign (hexact hsmall hscale)⟩

/-- One tenth is read back as it is, and the number read for the least positive number has one
of the codes up to three. -/
theorem floats_read_back_within_two_codes_tenth :
    decodeText (Value.float (Binary.ofBits 0x3fb999999999999a)).toJson =
        some (.float (Binary.ofBits 0x3fb999999999999a)) ∧
      ∃ y : Binary64, bindText (Value.float (Binary.ofBits 1)).toJson = .ok (.float y) ∧
        y.negative = false ∧ y.code ≤ 3 := by
  constructor
  · have hfinite : (Binary.ofBits 0x3fb999999999999a : Binary64).isFinite = true := by
      decide +kernel
    obtain ⟨n, y, hparse, hdecode, -, -, -, -, -, hexact⟩ :=
      floats_read_back_within_two_codes _ hfinite
    obtain rfl : Json.Numeral.ofFloat (Binary.ofBits 0x3fb999999999999a) = n :=
      Json.number.inj (Option.some.inj ((parse_toJson_float hfinite).symm.trans hparse))
    rwa [hexact (by decide +kernel) (by decide +kernel)] at hdecode
  · obtain ⟨n, y, -, -, hbind, -, hsign, hcode, -, -⟩ :=
      floats_read_back_within_two_codes (Binary.ofBits 1) (by decide +kernel)
    exact ⟨y, hbind, hsign.trans (by decide +kernel), hcode.trans (by decide +kernel)⟩

/-- A number that is not read back, although it is finite: both readings give the number two
codes before. -/
theorem float_not_read_back :
    (Binary.ofBits 0x515dc1a63ed50ded : Binary64).isFinite = true ∧
      decodeText (Value.float (Binary.ofBits 0x515dc1a63ed50ded)).toJson =
        some (.float (Binary.ofBits 0x515dc1a63ed50deb)) ∧
      bindText (Value.float (Binary.ofBits 0x515dc1a63ed50ded)).toJson =
        .ok (.float (Binary.ofBits 0x515dc1a63ed50deb)) ∧
      (Binary.ofBits 0x515dc1a63ed50deb : Binary64) ≠ Binary.ofBits 0x515dc1a63ed50ded := by
  decide +kernel

end Value

end SqlFragments
