import Mathlib.Algebra.Order.Field.Power
import Mathlib.Data.List.TakeWhile
import Mathlib.Data.Nat.Cast.Order.Field
import Mathlib.Tactic.FieldSimp
import Mathlib.Tactic.NormNum
import SqlFragments.Number.Shortest
import SqlFragments.Proofs.Number.Nearest

/-!
# Seventeen digits suffice

Every finite number but zero has a decimal of at most seventeen digits that rounds to
it.  On the grid with sixteen places after the leading digit, the neighbour that is
nearer to the number differs from it by less than one part in two times ten to the
sixteenth, and the steps between double-precision numbers are greater than that.  So
the search for the shortest decimal always ends on one of its grids.

Main results:

- `leadingExponent_bounds`: the leading digit counts the power of ten below the number.
- `readsBack_iff`: a decimal that reads back has the number as the nearest one.
- `shortest_readsBack`: the shortest decimal has digits, no leading zero, a significand
  of at most ten to the seventeenth, and the number as the nearest one.
- `value_shortest_le`: no shortest decimal is greater than the one of the greatest number.
-/

namespace SqlFragments.Number

attribute [local instance (high)] instPowNat

/-! ## Rows of digits -/

/-- Powers of ten are positive. -/
theorem ten_pow_pos (n : ℕ) : 0 < 10 ^ n := Nat.pow_pos (by decide)

/-- Digits on the left count a power of ten more for each digit on the right. -/
theorem ofDigits_append (left right : List ℕ) :
    ofDigits (left ++ right) = ofDigits left * 10 ^ right.length + ofDigits right := by
  induction right using List.reverseRecOn with
  | nil => simp [ofDigits]
  | append_singleton right d ih =>
    rw [← List.append_assoc, ofDigits_append_singleton, ih, ofDigits_append_singleton,
      List.length_append, List.length_singleton, Nat.pow_succ]
    ring

/-- More digits do not stand for less. -/
theorem ofDigits_le_append (left right : List ℕ) : ofDigits left ≤ ofDigits (left ++ right) := by
  have hpower : 0 < 10 ^ right.length := ten_pow_pos _
  rw [ofDigits_append]
  exact (Nat.le_mul_of_pos_right _ hpower).trans (Nat.le_add_right _ _)

@[simp]
theorem ofDigits_zeros (count : ℕ) : ofDigits (List.replicate count 0) = 0 := by
  induction count with
  | zero => simp [ofDigits]
  | succ count ih => rw [List.replicate_succ', ofDigits_append_singleton, ih]

/-- A row of digits stands for less than the power of ten of its length. -/
theorem ofDigits_lt {row : List ℕ} (hrow : ∀ d ∈ row, d < 10) : ofDigits row < 10 ^ row.length := by
  induction row using List.reverseRecOn with
  | nil => simp [ofDigits]
  | append_singleton row d ih =>
    have hd := hrow d (by simp)
    have hrest := ih fun e he => hrow e (by simp [he])
    rw [ofDigits_append_singleton, List.length_append, List.length_singleton, Nat.pow_succ]
    omega

/-- A number is below the power of ten of as many digits as it has. -/
theorem lt_pow_length_digits (n : ℕ) : n < 10 ^ (digits n).length := by
  have h := ofDigits_lt fun d hd => lt_ten_of_mem_digits (n := n) hd
  rwa [ofDigits_digits] at h

/-- The decimal digits of a positive number do not start with zero. -/
theorem exists_digits_cons {n : ℕ} (hpos : 0 < n) :
    ∃ first rest, digits n = first :: rest ∧ first ≠ 0 := by
  fun_induction digits n with
  | case1 n hn => exact ⟨n, [], rfl, by omega⟩
  | case2 n hn ih =>
    obtain ⟨first, rest, heq, hfirst⟩ := ih (by omega)
    exact ⟨first, rest ++ [n % 10], by rw [heq]; rfl, hfirst⟩

/-- A positive number has no more digits than its size asks for. -/
theorem pow_length_digits_le {n : ℕ} (hpos : 0 < n) : 10 ^ (digits n).length ≤ 10 * n := by
  fun_induction digits n with
  | case1 n hn =>
    rw [List.length_singleton]
    omega
  | case2 n hn ih =>
    have hrest := ih (by omega)
    rw [List.length_append, List.length_singleton, Nat.pow_succ]
    omega

/-! ## Decimal grids -/

/-- The denominator of a point of the grid is positive. -/
theorem gridPoint_den_pos (n : ℕ) (exponent : ℤ) : 0 < (gridPoint n exponent).2 := by
  unfold gridPoint
  split
  · exact Nat.one_pos
  · exact ten_pow_pos _

/-- A point of a grid is a multiple of the power of ten. -/
theorem gridPoint_value (n : ℕ) (exponent : ℤ) :
    ((gridPoint n exponent).1 / (gridPoint n exponent).2 : ℚ) = n * 10 ^ exponent := by
  unfold gridPoint
  split_ifs with hsign
  · obtain ⟨k, rfl⟩ := Int.eq_ofNat_of_zero_le hsign
    simp
  · obtain ⟨k, rfl⟩ : ∃ k : ℕ, exponent = -k := ⟨(-exponent).toNat, by omega⟩
    simp [div_eq_mul_inv]

/-- The denominator of a quotient on the grid is positive. -/
theorem onGrid_den_pos (num : ℕ) {den : ℕ} (hden : 0 < den) (exponent : ℤ) :
    0 < (onGrid num den exponent).2 := by
  unfold onGrid
  split
  · exact Nat.mul_pos hden (ten_pow_pos _)
  · exact hden

/-- A quotient on a grid counts the steps of the grid. -/
theorem onGrid_value (num den : ℕ) (exponent : ℤ) :
    ((onGrid num den exponent).1 / (onGrid num den exponent).2 : ℚ) =
      num / den / 10 ^ exponent := by
  unfold onGrid
  split_ifs with hsign
  · obtain ⟨k, rfl⟩ := Int.eq_ofNat_of_zero_le hsign
    simp [div_div]
  · obtain ⟨k, rfl⟩ : ∃ k : ℕ, exponent = -k := ⟨(-exponent).toNat, by omega⟩
    simp [mul_div_right_comm]

/-- The power of ten that the leading digit counts is not above the quotient, and the
next one is. -/
theorem leadingExponent_bounds {num den : ℕ} (hnum : 0 < num) (hden : 0 < den) :
    (10 : ℚ) ^ leadingExponent num den ≤ num / den ∧
      (num / den : ℚ) < 10 ^ (leadingExponent num den + 1) := by
  have hnumq : (0 : ℚ) < num := by exact_mod_cast hnum
  have hdenq : (0 : ℚ) < den := by exact_mod_cast hden
  unfold leadingExponent
  split_ifs with hle
  · -- A quotient of at least one: its whole part has as many digits.
    have hlow := pow_length_digits_le (Nat.div_pos hle hden)
    have hhigh := lt_pow_length_digits (num / den)
    rw [zpow_sub_one₀ (by norm_num), sub_add_cancel, zpow_natCast]
    constructor
    · rw [← div_eq_mul_inv, div_le_iff₀ (by norm_num), ← mul_div_right_comm, le_div_iff₀ hdenq]
      have hnat : 10 ^ (digits (num / den)).length * den ≤ num * 10 :=
        calc 10 ^ (digits (num / den)).length * den ≤ 10 * (num / den) * den :=
              Nat.mul_le_mul_right _ hlow
          _ ≤ num * 10 := by
              rw [Nat.mul_assoc, Nat.mul_comm num]
              exact Nat.mul_le_mul_left _ (Nat.div_mul_le_self _ _)
      exact_mod_cast hnat
    · rw [div_lt_iff₀ hdenq]
      exact_mod_cast (Nat.div_lt_iff_lt_mul hden).mp hhigh
  · -- A quotient below one: as many places as the whole part of its inverse has digits.
    have hone : 0 < (den - 1) / num := Nat.div_pos (by omega) hnum
    have hlow := pow_length_digits_le hone
    have hhigh := lt_pow_length_digits ((den - 1) / num)
    rw [zpow_add_one₀ (by norm_num), zpow_neg, zpow_natCast]
    constructor
    · rw [inv_le_comm₀ (by positivity) (by positivity), inv_div, div_le_iff₀ hnumq]
      have hnat : den - 1 < 10 ^ (digits ((den - 1) / num)).length * num :=
        (Nat.div_lt_iff_lt_mul hnum).mp hhigh
      exact_mod_cast (show den ≤ _ by omega)
    · rw [← div_eq_inv_mul, div_lt_div_iff₀ hdenq (by positivity)]
      have hnat : num * 10 ^ (digits ((den - 1) / num)).length < 10 * den :=
        calc num * 10 ^ (digits ((den - 1) / num)).length
            ≤ num * (10 * ((den - 1) / num)) := Nat.mul_le_mul_left _ hlow
          _ ≤ 10 * (den - 1) := by
              rw [Nat.mul_left_comm]
              exact Nat.mul_le_mul_left _ (Nat.mul_div_le _ _)
          _ < 10 * den := by omega
      exact_mod_cast hnat

/-! ## Neighbours on a grid -/

/-- The nearer neighbour is within one half of the quotient. -/
theorem nearerNeighbour_near (tie : Tie) (num : ℕ) {den : ℕ} (hden : 0 < den) :
    |(nearerNeighbour tie num den : ℚ) - num / den| ≤ 1 / 2 := by
  have hdenq : (0 : ℚ) < den := by exact_mod_cast hden
  have hsplit := Nat.div_add_mod num den
  have hmod := Nat.mod_lt num hden
  have hcomm := Nat.mul_comm den (num / den)
  have hnat : 2 * num ≤ 2 * (nearerNeighbour tie num den * den) + den ∧
      2 * (nearerNeighbour tie num den * den) ≤ 2 * num + den := by
    unfold nearerNeighbour
    dsimp only
    split_ifs with hlow hhigh
    · omega
    · rw [Nat.add_mul, Nat.one_mul]
      omega
    · cases tie with
      | even =>
        rcases Nat.mod_two_eq_zero_or_one (num / den) with hparity | hparity <;>
          simp only [hparity, Nat.add_mul, Nat.one_mul, Nat.add_zero] <;> omega
      | up =>
        simp only [Nat.add_mul, Nat.one_mul]
        omega
  have hbelow : (2 : ℚ) * num ≤ 2 * (nearerNeighbour tie num den * den) + den := by
    exact_mod_cast hnat.1
  have habove : (2 : ℚ) * (nearerNeighbour tie num den * den) ≤ 2 * num + den := by
    exact_mod_cast hnat.2
  rw [abs_le, neg_le_sub_iff_le_add, sub_le_iff_le_add']
  constructor
  · rw [div_le_iff₀ hdenq]
    linarith
  · rw [← sub_le_iff_le_add, le_div_iff₀ hdenq]
    linarith

/-- The nearer neighbour is the whole part of the quotient or its successor. -/
theorem nearerNeighbour_range (tie : Tie) (num den : ℕ) :
    num / den ≤ nearerNeighbour tie num den ∧ nearerNeighbour tie num den ≤ num / den + 1 := by
  unfold nearerNeighbour
  dsimp only
  split_ifs
  · omega
  · omega
  · cases tie <;> dsimp only <;> omega

/-- On a grid the nearer neighbour is within half a step. -/
theorem nearerNeighbour_onGrid (tie : Tie) (num : ℕ) {den : ℕ} (hden : 0 < den) (exponent : ℤ) :
    |(nearerNeighbour tie (onGrid num den exponent).1 (onGrid num den exponent).2 : ℚ) -
      num / den / 10 ^ exponent| ≤ 1 / 2 := by
  rw [← onGrid_value]
  exact nearerNeighbour_near tie _ (onGrid_den_pos num hden exponent)

/-- If the nearer neighbour reads back, a decimal is chosen. -/
theorem exists_shortestOn_of_readsBack {f : Format} {tie : Tie} {x : Binary f} {exponent : ℤ}
    (h : readsBack x exponent (nearerNeighbour tie (onGrid x.units f.one exponent).1
      (onGrid x.units f.one exponent).2) = true) : ∃ n, shortestOn tie x exponent = some n :=
  Option.isSome_iff_exists.mp (List.find?_isSome.mpr ⟨_, List.mem_cons_self, h⟩)

/-- A decimal that is chosen on a grid is a neighbour of the number. -/
theorem shortestOn_range {f : Format} {tie : Tie} {x : Binary f} {exponent : ℤ} {n : ℕ}
    (h : shortestOn tie x exponent = some n) :
    (onGrid x.units f.one exponent).1 / (onGrid x.units f.one exponent).2 ≤ n ∧
      n ≤ (onGrid x.units f.one exponent).1 / (onGrid x.units f.one exponent).2 + 1 := by
  have hmem := List.mem_of_find?_eq_some h
  have hrange := nearerNeighbour_range tie (onGrid x.units f.one exponent).1
    (onGrid x.units f.one exponent).2
  simp only [List.mem_cons, List.not_mem_nil, or_false] at hmem
  rcases hmem with rfl | rfl | rfl
  · exact hrange
  · exact ⟨le_rfl, Nat.le_succ _⟩
  · exact ⟨Nat.le_succ _, le_rfl⟩

/-- A multiple of a power of ten reads back exactly if the number is nearest to it. -/
theorem readsBack_iff {f : Format} (hbits : 0 < f.fractionBits) (x : Binary f) (exponent : ℤ)
    (n : ℕ) : readsBack x exponent n = true ↔ f.IsNearest (n * 10 ^ exponent * f.one) x.code := by
  have hnearest := f.isNearest_nearest hbits ((gridPoint n exponent).1 * f.one)
    (gridPoint_den_pos n exponent)
  rw [Nat.cast_mul, mul_div_right_comm, gridPoint_value] at hnearest
  have hcode : readsBack x exponent n = true ↔
      f.nearest ((gridPoint n exponent).1 * f.one) (gridPoint n exponent).2 = x.code := by
    obtain ⟨negative, code, hlt⟩ := x
    simp [readsBack, Binary.ofRatio, Binary.ofUnits]
  rw [hcode]
  constructor
  · intro heq
    rwa [heq] at hnearest
  · exact hnearest.unique

/-- A number is nearest to the decimal that is chosen for it. -/
theorem isNearest_of_shortestOn {f : Format} (hbits : 0 < f.fractionBits) {tie : Tie} {x : Binary f}
    {exponent : ℤ} {n : ℕ} (h : shortestOn tie x exponent = some n) :
    f.IsNearest (n * 10 ^ exponent * f.one) x.code :=
  (readsBack_iff hbits x exponent n).mp (readsBack_shortestOn h)

/-! ## The grid of seventeen digits -/

section

variable {f : Format} {x : Binary f}

/-- The distance from a point of a grid, in units and in steps of the grid. -/
theorem abs_gridPoint_sub {n units one : ℚ} (hone : 0 < one) (exponent : ℤ) :
    |n * 10 ^ exponent * one - units| =
      |n - units / one / 10 ^ exponent| * (10 ^ exponent * one) := by
  have hgrid : 0 < 10 ^ exponent * one := by positivity
  conv_rhs => rw [← abs_of_pos hgrid, ← abs_mul]
  congr 1
  field_simp

/-- A point within half a step of a grid with sixteen places after the leading digit
differs from the quantity by less than one part in two to the fifty-fourth. -/
theorem near_of_half_step {n units one : ℚ} {leading : ℤ} (hone : 0 < one)
    (hlead : 10 ^ leading ≤ units / one)
    (hnear : |n - units / one / 10 ^ (leading - 16)| ≤ 1 / 2) :
    |n * 10 ^ (leading - 16) * one - units| * 2 ^ 54 < units := by
  have hgrid : 0 < 10 ^ (leading - 16) * one := by positivity
  have hstep : 10 ^ (leading - 16) * one * 10 ^ 16 ≤ units := by
    have hpow : (10 : ℚ) ^ (leading - 16) * 10 ^ 16 = 10 ^ leading := by
      rw [← zpow_natCast, ← zpow_add₀ (by norm_num)]
      norm_num
    rw [le_div_iff₀ hone] at hlead
    rwa [mul_right_comm, hpow]
  have herror := mul_le_mul_of_nonneg_right hnear hgrid.le
  rw [abs_gridPoint_sub hone]
  linarith

/-- With sixteen places after the leading digit there is always a decimal that rounds
to the number, in every format with at most fifty-two fraction bits. -/
theorem exists_shortestOn (tie : Tie) (hbits : 0 < f.fractionBits) (hfew : f.fractionBits ≤ 52)
    (hfinite : x.isFinite = true) (hpos : x.isZero = false) :
    ∃ n, shortestOn tie x (leadingExponent x.units f.one - 16) = some n := by
  have hone : 0 < f.one := Nat.two_pow_pos _
  have hlead := (leadingExponent_bounds (Binary.units_pos hpos) hone).1
  have hnear := nearerNeighbour_onGrid tie x.units hone (leadingExponent x.units f.one - 16)
  refine exists_shortestOn_of_readsBack ?_
  rw [readsBack_iff hbits]
  refine Format.isNearest_of_near (Binary.isFinite_iff.mp hfinite) (lt_of_le_of_lt ?_
    (near_of_half_step (by exact_mod_cast hone) hlead hnear))
  refine mul_le_mul_of_nonneg_left ?_ (abs_nonneg _)
  have hpow : (2 : ℚ) ^ f.fractionBits ≤ 2 ^ 52 := pow_le_pow_right₀ (by norm_num) hfew
  linarith

/-- On a grid with at most sixteen places after the leading digit, a decimal that is
chosen has between one and seventeen digits, or is the first number with one more. -/
theorem shortestOn_bounds {tie : Tie} {count n : ℕ} (hpos : x.isZero = false) (hcount : count ≤ 16)
    (h : shortestOn tie x (leadingExponent x.units f.one - count) = some n) :
    0 < n ∧ n ≤ 10 ^ 17 := by
  have hone : 0 < f.one := Nat.two_pow_pos _
  obtain ⟨hlow, hhigh⟩ := leadingExponent_bounds (Binary.units_pos hpos) hone
  have hvalue := onGrid_value x.units f.one (leadingExponent x.units f.one - count)
  have hden := onGrid_den_pos x.units hone (leadingExponent x.units f.one - count)
  obtain ⟨hbelow, habove⟩ := shortestOn_range h
  generalize leadingExponent x.units f.one = leading at *
  generalize onGrid x.units f.one (leading - count) = grid at *
  have hdenq : (0 : ℚ) < grid.2 := by exact_mod_cast hden
  have hstep : (0 : ℚ) < 10 ^ (leading - count) := by positivity
  constructor
  · refine lt_of_lt_of_le (Nat.div_pos ?_ hden) hbelow
    have hle : (10 : ℚ) ^ (leading - count) ≤ x.units / f.one :=
      (zpow_le_zpow_right₀ (by norm_num) (by omega)).trans hlow
    rw [← one_le_div hstep, ← hvalue, one_le_div hdenq] at hle
    exact_mod_cast hle
  · refine habove.trans ((Nat.div_lt_iff_lt_mul hden).mpr ?_)
    have hlt : (x.units / f.one : ℚ) < 10 ^ 17 * 10 ^ (leading - count) := by
      refine hhigh.trans_le ?_
      rw [← zpow_natCast, ← zpow_add₀ (by norm_num)]
      exact zpow_le_zpow_right₀ (by norm_num) (by push_cast; omega)
    rw [← div_lt_iff₀ hstep, ← hvalue, div_lt_iff₀ hdenq] at hlt
    exact_mod_cast hlt

end

/-! ## Decimals without trailing zeros -/

namespace Scientific

/-- The quantity that a decimal stands for. -/
def value (d : Scientific) : ℚ := ofDigits d.row * 10 ^ (d.exponent - d.row.length + 1)

/-- A decimal is normal if its row is one of digits and does not start with zero. -/
structure IsNormal (d : Scientific) : Prop where
  digit : ∀ e ∈ d.row, e < 10
  leading : ∃ first rest, d.row = first :: rest ∧ first ≠ 0

/-- A decimal in normal form is positive. -/
theorem IsNormal.ofDigits_pos {d : Scientific} (h : d.IsNormal) : 0 < ofDigits d.row := by
  obtain ⟨first, rest, hrow, hfirst⟩ := h.leading
  have hle := ofDigits_le_append [first] rest
  rw [List.singleton_append, ← hrow] at hle
  have hone : ofDigits [first] = first := Nat.zero_add first
  omega

/-- Only zeros are left out of the digits of the number. -/
theorem digits_eq_row_append (n : ℕ) (exponent : ℤ) :
    ∃ zeros, digits n = (ofNat n exponent).row ++ List.replicate zeros 0 := by
  have hsplit := List.takeWhile_append_dropWhile (p := (· == 0)) (l := (digits n).reverse)
  refine ⟨((digits n).reverse.takeWhile (· == 0)).length, ?_⟩
  have hzeros : (digits n).reverse.takeWhile (· == 0) =
      List.replicate ((digits n).reverse.takeWhile (· == 0)).length 0 :=
    List.eq_replicate_iff.mpr ⟨rfl, fun d hd => by simpa using List.mem_takeWhile_imp hd⟩
  calc digits n = (digits n).reverse.reverse := (List.reverse_reverse _).symm
    _ = ((digits n).reverse.dropWhile (· == 0)).reverse ++
        ((digits n).reverse.takeWhile (· == 0)).reverse := by
          rw [← List.reverse_append, hsplit]
    _ = _ := by
          rw [hzeros, List.reverse_replicate, List.length_replicate]
          rfl

/-- The decimal of a positive number is in normal form. -/
theorem isNormal_ofNat {n : ℕ} (hpos : 0 < n) (exponent : ℤ) : (ofNat n exponent).IsNormal := by
  obtain ⟨zeros, heq⟩ := digits_eq_row_append n exponent
  obtain ⟨first, rest, hdigits, hfirst⟩ := exists_digits_cons hpos
  constructor
  · intro e he
    refine lt_ten_of_mem_digits (n := n) ?_
    rw [heq]
    exact List.mem_append_left _ he
  · rw [hdigits] at heq
    cases hrow : (ofNat n exponent).row with
    | nil =>
      rw [hrow, List.nil_append] at heq
      have hzero := List.eq_of_mem_replicate (heq ▸ List.mem_cons_self)
      exact absurd hzero hfirst
    | cons d row =>
      rw [hrow, List.cons_append] at heq
      exact ⟨d, row, rfl, (List.cons.inj heq).1 ▸ hfirst⟩

/-- The decimal of a number on a grid stands for it. -/
theorem value_ofNat (n : ℕ) (exponent : ℤ) : (ofNat n exponent).value = n * 10 ^ exponent := by
  obtain ⟨zeros, heq⟩ := digits_eq_row_append n exponent
  have hn : n = ofDigits (ofNat n exponent).row * 10 ^ zeros := by
    conv_lhs => rw [← ofDigits_digits n, heq, ofDigits_append]
    rw [List.length_replicate, ofDigits_zeros, Nat.add_zero]
  have hlength : ((digits n).length : ℤ) = (ofNat n exponent).row.length + zeros := by
    rw [heq, List.length_append, List.length_replicate]
    push_cast
    rfl
  have hexponent : (ofNat n exponent).exponent - (ofNat n exponent).row.length + 1 =
      zeros + exponent := by
    change exponent + (digits n).length - 1 - (ofNat n exponent).row.length + 1 = zeros + exponent
    omega
  rw [value, hexponent, zpow_add₀ (by norm_num), zpow_natCast, ← mul_assoc]
  conv_rhs => rw [hn]
  push_cast
  rfl

/-- Dropping trailing zeros makes the digits no greater. -/
theorem ofDigits_row_le (n : ℕ) (exponent : ℤ) : ofDigits (ofNat n exponent).row ≤ n := by
  obtain ⟨zeros, heq⟩ := digits_eq_row_append n exponent
  conv_rhs => rw [← ofDigits_digits n, heq, ofDigits_append]
  rw [List.length_replicate, ofDigits_zeros, Nat.add_zero]
  exact Nat.le_mul_of_pos_right _ (ten_pow_pos _)

end Scientific

/-! ## The shortest decimal -/

/-- The search for the shortest decimal ends on a grid. -/
theorem exists_shortest_eq (tie : Tie) {x : Binary64} (hfinite : x.isFinite = true)
    (hpos : x.isZero = false) : ∃ (exponent : ℤ) (n : ℕ),
      shortest tie x = Scientific.ofNat n exponent ∧ shortestOn tie x exponent = some n ∧
        0 < n ∧ n ≤ 10 ^ 17 := by
  obtain ⟨n, hn⟩ := exists_shortestOn tie (f := Format.double) Format.double_fractionBits_pos
    le_rfl hfinite hpos
  have hbounds : ∀ count n : ℕ, count ≤ 16 →
      shortestOn tie x (leadingExponent x.units Format.double.one - count) = some n →
        0 < n ∧ n ≤ 10 ^ 17 := fun _ _ => shortestOn_bounds hpos
  unfold shortest
  generalize leadingExponent x.units Format.double.one = leading at *
  have hsome : ((List.range maxDigits).findSome? fun (count : ℕ) =>
      (shortestOn tie x (leading - count)).map (Scientific.ofNat · (leading - count))).isSome := by
    refine List.findSome?_isSome_iff.mpr ⟨16, by decide, ?_⟩
    rw [Option.isSome_map, Nat.cast_ofNat, hn]
    rfl
  obtain ⟨d, hd⟩ := Option.isSome_iff_exists.mp hsome
  obtain ⟨count, hcount, hmap⟩ := List.exists_of_findSome?_eq_some hd
  obtain ⟨n, hchosen, rfl⟩ := Option.map_eq_some_iff.mp hmap
  have hle : count ≤ 16 := Nat.le_of_lt_succ (List.mem_range.mp hcount)
  refine ⟨leading - count, n, ?_, hchosen, hbounds count n hle hchosen⟩
  dsimp only
  rw [hd, Option.getD_some]

/-- The shortest decimal is normal, its digits stand for at most ten to the seventeenth,
and the number is nearest to it. -/
theorem shortest_readsBack (tie : Tie) {x : Binary64} (hfinite : x.isFinite = true)
    (hpos : x.isZero = false) :
    (shortest tie x).IsNormal ∧ ofDigits (shortest tie x).row ≤ 10 ^ 17 ∧
      Format.double.IsNearest ((shortest tie x).value * Format.double.one) x.code := by
  obtain ⟨exponent, n, heq, hchosen, hn, hle⟩ := exists_shortest_eq tie hfinite hpos
  have hnearest := isNearest_of_shortestOn Format.double_fractionBits_pos hchosen
  rw [heq, Scientific.value_ofNat]
  exact ⟨Scientific.isNormal_ofNat hn _, (Scientific.ofDigits_row_le n _).trans hle, hnearest⟩

/-! ## The greatest decimal -/

/-- The shortest decimal of the greatest number. -/
def greatestDecimal : ℕ := 17976931348623157 * 10 ^ 292

/-- The greatest decimal as a rational. -/
theorem cast_greatestDecimal : (greatestDecimal : ℚ) = 17976931348623157 * 10 ^ 292 := by
  rw [greatestDecimal, Nat.cast_mul, Nat.cast_pow, Nat.cast_ofNat, Nat.cast_ofNat]

/-- No quantity above the middle below infinity has a finite number as the nearest. -/
theorem Format.IsNearest.le_middle {f : Format} {q : ℚ} {code : ℕ} (h : f.IsNearest q code)
    (hfinite : code < f.infinity) : q ≤ f.middle (f.infinity - 1) :=
  (h.below hfinite).trans (f.middle_strictMono.monotone (by omega))

/-- A multiple of the step of the greatest number's decimal that has a finite number as
the nearest is at most one step above that decimal. -/
theorem le_of_isNearest_greatest {n code : ℕ} (hfinite : code < Format.double.infinity)
    (h : Format.double.IsNearest (n * 10 ^ 292 * Format.double.one) code) :
    n ≤ 17976931348623158 := by
  have hle := h.le_middle hfinite
  have hlimit : (Format.double.units (Format.double.infinity - 1) +
      Format.double.units (Format.double.infinity - 1 + 1)) / (2 * 10 ^ 292 * Format.double.one) =
        17976931348623158 := by decide +kernel
  have hpos : 0 < 2 * 10 ^ 292 * Format.double.one := by decide +kernel
  rw [← hlimit, Nat.le_div_iff_mul_le hpos]
  unfold Format.middle at hle
  generalize Format.double.units (Format.double.infinity - 1) = below at hle ⊢
  generalize Format.double.units (Format.double.infinity - 1 + 1) = above at hle ⊢
  generalize Format.double.one = one at hle ⊢
  generalize hpower : 10 ^ 292 = power at ⊢
  have hpowerq : (10 : ℚ) ^ 292 = power := by
    rw [← hpower, Nat.cast_pow, Nat.cast_ofNat]
  rw [hpowerq, le_div_iff₀ (by norm_num)] at hle
  have hnat : n * power * one * 2 ≤ below + above := by exact_mod_cast hle
  calc n * (2 * power * one) = n * power * one * 2 := by ring
    _ ≤ below + above := hnat

/-- On its own grid the greatest number is nearer to the decimal below. -/
theorem shortestOn_greatest {x : Binary64} (hx : x.code = Format.double.infinity - 1) :
    shortestOn .even x 292 = some 17976931348623157 := by
  have hall : ∀ negative, shortestOn .even (⟨negative, Format.double.infinity - 1,
      by decide +kernel⟩ : Binary64) 292 = some 17976931348623157 := by decide +kernel
  obtain ⟨negative, code, hlt⟩ := x
  subst hx
  exact hall negative

/-- A decimal that is chosen is not greater than the one of the greatest number if it is a
multiple of the same step, although the next multiple has that number as the nearest too. -/
theorem le_of_shortestOn {x : Binary64} (hfinite : x.isFinite = true) {k n : ℕ}
    (hchosen : shortestOn .even x (k + 292) = some n) : n * 10 ^ k ≤ 17976931348623157 := by
  have hnearest := isNearest_of_shortestOn Format.double_fractionBits_pos hchosen
  have hvalue : (n * 10 ^ (k + 292 : ℤ) : ℚ) = (n * 10 ^ k : ℕ) * 10 ^ 292 := by
    rw [zpow_add₀ (by norm_num), zpow_natCast, ← mul_assoc, Nat.cast_mul, Nat.cast_pow,
      Nat.cast_ofNat]
    congr 1
  rw [hvalue] at hnearest
  have hle := le_of_isNearest_greatest (Binary.isFinite_iff.mp hfinite) hnearest
  suffices hne : n * 10 ^ k ≠ 17976931348623158 by omega
  intro hnext
  -- The next multiple does not end in zero, and it belongs to the greatest number.
  have hk : k = 0 := by
    by_contra hne
    obtain ⟨j, rfl⟩ := Nat.exists_eq_succ_of_ne_zero hne
    rw [Nat.pow_succ, ← Nat.mul_assoc] at hnext
    omega
  have hcode : x.code = Format.double.infinity - 1 := by
    have hrounded := Format.double.isNearest_nearest Format.double_fractionBits_pos
      (17976931348623158 * 10 ^ 292 * Format.double.one) Nat.one_pos
    have hgreatest : Format.double.nearest (17976931348623158 * 10 ^ 292 * Format.double.one) 1 =
        Format.double.infinity - 1 := by decide +kernel
    rw [hgreatest, Nat.cast_one, div_one, Nat.cast_mul, Nat.cast_mul, Nat.cast_pow,
      Nat.cast_ofNat (n := 10)] at hrounded
    rw [hnext] at hnearest
    exact hnearest.unique hrounded
  rw [hk, Nat.cast_zero, zero_add, shortestOn_greatest hcode] at hchosen
  have hn := Option.some.inj hchosen
  rw [hk] at hnext
  omega

/-- No shortest decimal is greater than the one of the greatest number. -/
theorem value_shortest_le {x : Binary64} (hfinite : x.isFinite = true) (hpos : x.isZero = false) :
    (shortest .even x).value ≤ greatestDecimal := by
  obtain ⟨exponent, n, heq, hchosen, -, hdigits⟩ := exists_shortest_eq .even hfinite hpos
  rw [heq, Scientific.value_ofNat, cast_greatestDecimal]
  by_cases hsmall : exponent < 292
  · have hpower : (10 : ℚ) ^ exponent * 10 ≤ 10 ^ 292 := by
      rw [← zpow_add_one₀ (by norm_num), ← zpow_natCast]
      exact zpow_le_zpow_right₀ (by norm_num) (by omega)
    have hn : (n : ℚ) ≤ 10 ^ 17 := by exact_mod_cast hdigits
    have hexponent : (0 : ℚ) < 10 ^ exponent := by positivity
    have hstep := mul_le_mul_of_nonneg_right hn hexponent.le
    generalize (10 : ℚ) ^ 292 = greatest at hpower ⊢
    linarith
  · obtain ⟨k, rfl⟩ : ∃ k : ℕ, exponent = k + 292 := ⟨(exponent - 292).toNat, by omega⟩
    have hle := le_of_shortestOn hfinite hchosen
    rw [zpow_add₀ (by norm_num), zpow_natCast, ← mul_assoc]
    refine mul_le_mul_of_nonneg_right ?_ (by positivity)
    exact_mod_cast hle

end SqlFragments.Number
