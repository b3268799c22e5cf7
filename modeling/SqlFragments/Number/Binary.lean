/-!
# Binary floating-point numbers

A number of a binary interchange format is a sign and a magnitude code, the
exponent and fraction fields read as one natural number.  Codes count the
magnitudes of the format in increasing order, infinity stands after the largest
finite number, and the codes after infinity are not numbers.  Every finite
magnitude is a whole number of units, the smallest positive magnitude, so all
rounding is done in exact natural arithmetic and never by machine floats.

Main results:

- `Binary.ofBits_toBits` and `Binary.toBits_ofBits`: a number and its bits
  determine each other.
- `Format.nearest_le_infinity`: a rounded magnitude is always a number.
- `roundDiv_mul`: rounding changes no exact quotient.
-/

namespace SqlFragments.Number

-- Powers are those of the standard library, whatever else is imported.
attribute [local instance (high)] instPowNat

/-! ## Formats and magnitude codes -/

/-- A binary interchange format, given by the widths of its two fields. -/
structure Format where
  exponentBits : Nat
  fractionBits : Nat
deriving DecidableEq, Repr

namespace Format

/-- Single precision, 32 bits wide. -/
def single : Format := ⟨8, 23⟩

/-- Double precision, 64 bits wide. -/
def double : Format := ⟨11, 52⟩

/-- The width of a magnitude code. -/
def magnitudeBits (f : Format) : Nat := f.exponentBits + f.fractionBits

/-- The magnitude code of infinity: an exponent of ones and an empty fraction. -/
def infinity (f : Format) : Nat := (2 ^ f.exponentBits - 1) * 2 ^ f.fractionBits

/-- The number of units in one is two to this power. -/
def unitExponent (f : Format) : Nat := 2 ^ (f.exponentBits - 1) - 2 + f.fractionBits

/-- The number of units in one. -/
def one (f : Format) : Nat := 2 ^ f.unitExponent

/-- The magnitude of a code, in units. -/
def units (f : Format) (code : Nat) : Nat :=
  let exponent := code / 2 ^ f.fractionBits
  let fraction := code % 2 ^ f.fractionBits
  if exponent = 0 then fraction else (2 ^ f.fractionBits + fraction) * 2 ^ (exponent - 1)

/-- The code of the infinities fits the bits of a magnitude. -/
theorem infinity_lt (f : Format) : f.infinity < 2 ^ f.magnitudeBits := by
  have hfraction : 0 < 2 ^ f.fractionBits := Nat.two_pow_pos _
  have hexponent : 0 < 2 ^ f.exponentBits := Nat.two_pow_pos _
  rw [infinity, magnitudeBits, Nat.pow_add]
  exact Nat.mul_lt_mul_of_pos_right (by omega) hfraction

end Format

/-! ## Rounding to nearest -/

/-- The whole number nearest to a quotient; of two equally near ones the even. -/
def roundDiv (num den : Nat) : Nat :=
  let quotient := num / den
  let twice := 2 * (num % den)
  if twice < den then quotient
  else if den < twice then quotient + 1
  else quotient + quotient % 2

/-- An exact quotient is its own rounding. -/
@[simp]
theorem roundDiv_mul (n : Nat) {den : Nat} (h : 0 < den) : roundDiv (n * den) den = n := by
  simp [roundDiv, Nat.mul_div_cancel n h, h]

/-- A rounded quotient lies within one half of the quotient. -/
theorem roundDiv_near (num : Nat) {den : Nat} (h : 0 < den) :
    2 * num ≤ (2 * roundDiv num den + 1) * den ∧
      2 * (roundDiv num den * den) ≤ 2 * num + den := by
  have hsplit := Nat.div_add_mod num den
  have hmod := Nat.mod_lt num h
  have hcomm := Nat.mul_comm den (num / den)
  simp only [roundDiv]
  split
  · simp only [Nat.add_mul, Nat.mul_assoc, Nat.one_mul]
    omega
  · split
    · simp only [Nat.add_mul, Nat.mul_add, Nat.mul_assoc, Nat.one_mul]
      omega
    · rcases Nat.mod_two_eq_zero_or_one (num / den) with hq | hq <;>
        simp only [hq, Nat.add_mul, Nat.mul_add, Nat.mul_assoc, Nat.one_mul, Nat.add_zero] <;>
        omega

namespace Format

/-- The code of the magnitude nearest to a quotient of units; of two equally near
ones the one with an even code.  A quotient at or beyond the middle between the
largest finite magnitude and the next power of two gives infinity. -/
def nearest (f : Format) (num den : Nat) : Nat :=
  let shift := (num / den).log2 - f.fractionBits
  min (shift * 2 ^ f.fractionBits + roundDiv num (den * 2 ^ shift)) f.infinity

/-- Rounding never passes the code of infinity. -/
theorem nearest_le_infinity (f : Format) (num den : Nat) : f.nearest num den ≤ f.infinity :=
  Nat.min_le_right _ _

end Format

/-! ## Numbers of a format -/

/-- A number of a binary format: its sign and its magnitude code. -/
structure Binary (f : Format) where
  negative : Bool
  code : Nat
  code_lt : code < 2 ^ f.magnitudeBits
deriving DecidableEq, Repr

namespace Binary

variable {f : Format}

/-- The number that a word of the format's width stands for; higher bits are ignored. -/
def ofBits (bits : Nat) : Binary f where
  negative := bits / 2 ^ f.magnitudeBits % 2 == 1
  code := bits % 2 ^ f.magnitudeBits
  code_lt := Nat.mod_lt _ (Nat.two_pow_pos _)

/-- The word that stands for a number: the sign bit, then the magnitude code. -/
def toBits (x : Binary f) : Nat :=
  x.negative.toNat * 2 ^ f.magnitudeBits + x.code

/-- The bits of a number fit its format. -/
theorem toBits_lt (x : Binary f) : x.toBits < 2 ^ (f.magnitudeBits + 1) := by
  have hcode := x.code_lt
  rw [toBits, Nat.pow_succ]
  cases x.negative <;> simp <;> omega

@[simp]
theorem ofBits_toBits (x : Binary f) : ofBits x.toBits = x := by
  obtain ⟨negative, code, hcode⟩ := x
  have hpos := Nat.two_pow_pos f.magnitudeBits
  cases negative
  · simp [ofBits, toBits, Nat.div_eq_of_lt hcode, Nat.mod_eq_of_lt hcode]
  · simp [ofBits, toBits, Nat.add_div_left _ hpos, Nat.div_eq_of_lt hcode,
      Nat.mod_eq_of_lt hcode]

/-- A number read from bits has these bits. -/
theorem toBits_ofBits {bits : Nat} (h : bits < 2 ^ (f.magnitudeBits + 1)) :
    (ofBits bits : Binary f).toBits = bits := by
  have hsplit := Nat.div_add_mod bits (2 ^ f.magnitudeBits)
  have hcomm := Nat.mul_comm (2 ^ f.magnitudeBits) (bits / 2 ^ f.magnitudeBits)
  have hdiv : bits / 2 ^ f.magnitudeBits < 2 :=
    Nat.div_lt_of_lt_mul (by rw [← Nat.pow_succ]; exact h)
  rcases Nat.le_one_iff_eq_zero_or_eq_one.mp (Nat.lt_succ_iff.mp hdiv) with hzero | hone
  · simp only [ofBits, toBits, hzero] at *
    simp
    omega
  · simp only [ofBits, toBits, hone] at *
    simp
    omega

/-- Whether this is no number, that is, a code after infinity. -/
def isNaN (x : Binary f) : Bool := f.infinity < x.code

/-- Whether this is an infinity of either sign. -/
def isInfinite (x : Binary f) : Bool := x.code == f.infinity

/-- Whether this is a finite number. -/
def isFinite (x : Binary f) : Bool := x.code < f.infinity

/-- Whether this is a zero of either sign. -/
def isZero (x : Binary f) : Bool := x.code == 0

/-- The magnitude of a finite number, in units. -/
def units (x : Binary f) : Nat := f.units x.code

/-- Numeric equality: the two zeros are equal, and what is no number equals nothing. -/
def equals (x y : Binary f) : Bool :=
  !x.isNaN && !y.isNaN && (x == y || x.isZero && y.isZero)

/-! ## Arithmetic, rounded once -/

/-- The number of the given sign nearest to a quotient of units. -/
def ofUnits (negative : Bool) (num den : Nat) : Binary f where
  negative := negative
  code := f.nearest num den
  code_lt := Nat.lt_of_le_of_lt (f.nearest_le_infinity num den) f.infinity_lt

/-- The number of the given sign nearest to a quotient. -/
def ofRatio (negative : Bool) (num den : Nat) : Binary f :=
  ofUnits negative (num * f.one) den

/-- The number nearest to a natural number. -/
def ofNat (n : Nat) : Binary f := ofRatio false n 1

/-- The number nearest to an integer; the integer zero gives the positive zero. -/
def ofInt (i : Int) : Binary f := ofRatio (i < 0) i.natAbs 1

/-- The product of two finite numbers. -/
def mul (x y : Binary f) : Binary f :=
  ofUnits (x.negative != y.negative) (x.units * y.units) f.one

/-- The quotient of a finite number by a finite number other than zero. -/
def div (x y : Binary f) : Binary f :=
  ofUnits (x.negative != y.negative) (x.units * f.one) y.units

/-- The number with the opposite sign. -/
def neg (x : Binary f) : Binary f := { x with negative := !x.negative }

/-- The infinity of the given sign. -/
def infinite (negative : Bool) : Binary f := ⟨negative, f.infinity, f.infinity_lt⟩

/-- The fraction field of a number. -/
def fraction (x : Binary f) : Nat := x.code % 2 ^ f.fractionBits

/-- What is no number, with the sign and the leading fraction bits of `x` and with
the first fraction bit set. -/
def quieted (x : Binary f) (g : Format) : Binary g :=
  let fraction := x.fraction * 2 ^ g.fractionBits / 2 ^ f.fractionBits
  let half := 2 ^ (g.fractionBits - 1)
  { ofBits (g.infinity + half + fraction % half) with negative := x.negative }

/-- The number of another format nearest to this one. -/
def convert (x : Binary f) (g : Format) : Binary g :=
  if x.isNaN then x.quieted g
  else if x.isInfinite then infinite x.negative
  else ofRatio x.negative x.units f.one

end Binary

/-- A double-precision number. -/
abbrev Binary64 := Binary Format.double

/-- A single-precision number. -/
abbrev Binary32 := Binary Format.single

end SqlFragments.Number
