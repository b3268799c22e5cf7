import SqlFragments.Number.Shortest

/-!
# Layouts of decimal text

A layout fixes how the shortest decimal of a number becomes text: which of two
equally near decimals is taken, for which sizes the digits are written in place,
whether a whole number keeps a point, and how an exponent is signed.

Main results:

- `Layout.plain`, `Layout.rounded` and `Layout.marked` are the three layouts in use.
-/

namespace SqlFragments.Number

/-- The decisions of a format that writes numbers in decimal. -/
structure Layout where
  /-- The choice between equally near decimals. -/
  tie : Tie
  /-- Whether digits are written in place when the leading one counts this power of ten. -/
  inPlace : Int → Bool
  /-- Whether a whole number written in place ends in a point and a zero. -/
  keepsPoint : Bool
  /-- Whether an exponent that is not negative has a plus sign. -/
  signsExponent : Bool

namespace Layout

/-- All digits in place, and a whole number without a point. -/
def plain : Layout where
  tie := .up
  inPlace := fun _ => true
  keepsPoint := false
  signsExponent := false

/-- Digits in place from the fifth decimal place up to sixteen digits before the
point, and a sign on every exponent. -/
def rounded : Layout where
  tie := .even
  inPlace := fun exponent => -5 ≤ exponent && exponent ≤ 15
  keepsPoint := true
  signsExponent := true

/-- Digits in place from one ten-thousandth up to sixteen digits before the point,
and a sign on negative exponents only. -/
def marked : Layout where
  tie := .up
  inPlace := fun exponent => -4 ≤ exponent && exponent ≤ 15
  keepsPoint := true
  signsExponent := false

/-- The digits written in place, around a point if they need one. -/
def writeInPlace (layout : Layout) (decimal : Scientific) : List Char :=
  if decimal.exponent < 0 then
    let zeros := List.replicate (-decimal.exponent - 1).toNat 0
    ['0', '.'] ++ writeDigits (zeros ++ decimal.row)
  else
    let whole := decimal.exponent.toNat + 1
    if decimal.row.length ≤ whole then
      writeDigits (decimal.row ++ List.replicate (whole - decimal.row.length) 0) ++
        (if layout.keepsPoint then ['.', '0'] else [])
    else
      writeDigits (decimal.row.take whole) ++ '.' :: writeDigits (decimal.row.drop whole)

/-- The leading digit, the others after a point, and the exponent. -/
def writeScaled (layout : Layout) (decimal : Scientific) : List Char :=
  let others := decimal.row.drop 1
  let sign := if 0 ≤ decimal.exponent && layout.signsExponent then ['+'] else []
  writeDigits (decimal.row.take 1) ++
    (if others.isEmpty then [] else '.' :: writeDigits others) ++
    'e' :: sign ++ decimalInt decimal.exponent

/-- The magnitude of a finite number. -/
def writeMagnitude (layout : Layout) (x : Binary64) : List Char :=
  let decimal := if x.isZero then ⟨[0], 0⟩ else shortest layout.tie x
  if layout.inPlace decimal.exponent then layout.writeInPlace decimal
  else layout.writeScaled decimal

/-- A finite number, with a minus sign if it has the negative sign. -/
def writeFinite (layout : Layout) (x : Binary64) : List Char :=
  if x.negative then '-' :: layout.writeMagnitude x else layout.writeMagnitude x

/-- Any number as text; infinities are signed, and what is no number is not. -/
def write (layout : Layout) (x : Binary64) : String :=
  if x.isNaN then "NaN"
  else if x.isInfinite then if x.negative then "-inf" else "inf"
  else String.ofList (layout.writeFinite x)

end Layout

end SqlFragments.Number
