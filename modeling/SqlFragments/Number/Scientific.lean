import SqlFragments.Number.Binary
import SqlFragments.Number.Decimal

/-!
# Decimal digits with a power of ten

A row of decimal digits times a power of ten is rounded once, to the nearest
double-precision number.  Powers of any size are taken, since those that make the
number infinite or zero in any case are not computed.

Main results:

- `nearestDecimal_zeros`: zeros stand for zero, whatever their power of ten.
-/

namespace SqlFragments.Number

attribute [local instance (high)] instPowNat

/-- A power of ten beyond all finite numbers, and whose inverse is below half of the least
positive number. -/
def powerLimit : Nat := 400

/-- The number nearest to a row of digits times a power of ten.  A power that is so great
or so small that the number is infinite or zero in any case is not computed. -/
def nearestDecimal (row : List Nat) (power : Int) : Binary64 :=
  let power := max (-(row.length + powerLimit : Int)) (min power powerLimit)
  if 0 ≤ power then Binary.ofRatio false (ofDigits row * 10 ^ power.toNat) 1
  else Binary.ofRatio false (ofDigits row) (10 ^ (-power).toNat)

/-- Zeros stand for zero, whatever their power of ten. -/
theorem nearestDecimal_zeros (n : Nat) (power : Int) :
    (nearestDecimal (List.replicate n 0) power).isZero = true := by
  have hzero : ofDigits (List.replicate n 0) = 0 := by
    induction n with
    | zero => rfl
    | succ n ih => rw [List.replicate_succ', ofDigits_append_singleton, ih]
  have hnearest : ∀ den, Format.double.nearest 0 den = 0 := fun den => by
    simp [Format.nearest, roundDiv]
  unfold nearestDecimal
  simp only [hzero]
  split <;> simp [Binary.ofRatio, Binary.ofUnits, Binary.isZero, hnearest]

end SqlFragments.Number
