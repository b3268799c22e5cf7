import SqlFragments.Number.Binary
import SqlFragments.Number.Decimal

/-!
# The shortest decimal that reads back

Among the decimals that round to a given binary number, those with the fewest
digits are the shortest, and of these the nearest to the number is chosen.  For
each count of digits only two decimals can be the nearest on their grid: the
neighbours of the number below and above.  Both are tested by rounding them back
in exact arithmetic.

Main results:

- `readsBack_shortestOn`: a decimal chosen on a grid rounds to the number.
-/

namespace SqlFragments.Number

attribute [local instance (high)] instPowNat

/-! ## Decimal grids -/

/-- How to choose between two decimals that are equally near. -/
inductive Tie where
  /-- The decimal with the even last digit. -/
  | even
  /-- The greater decimal. -/
  | up
deriving DecidableEq, Repr

/-- A quotient on the grid of multiples of a power of ten, as a quotient again. -/
def onGrid (num den : Nat) (exponent : Int) : Nat × Nat :=
  if 0 ≤ exponent then (num, den * 10 ^ exponent.toNat)
  else (num * 10 ^ (-exponent).toNat, den)

/-- A multiple of a power of ten, as a quotient. -/
def gridPoint (n : Nat) (exponent : Int) : Nat × Nat :=
  if 0 ≤ exponent then (n * 10 ^ exponent.toNat, 1)
  else (n, 10 ^ (-exponent).toNat)

/-- The power of ten that the leading digit of a positive quotient counts. -/
def leadingExponent (num den : Nat) : Int :=
  if den ≤ num then ((digits (num / den)).length : Int) - 1
  else -((digits ((den - 1) / num)).length : Int)

/-! ## Selection -/

/-- Whether a multiple of a power of ten rounds to a number. -/
def readsBack {f : Format} (x : Binary f) (exponent : Int) (n : Nat) : Bool :=
  let (num, den) := gridPoint n exponent
  (Binary.ofRatio x.negative num den : Binary f) == x

/-- The neighbour of a quotient, above or below, that is nearer to it. -/
def nearerNeighbour (tie : Tie) (num den : Nat) : Nat :=
  let below := num / den
  let twice := 2 * (num % den)
  if twice < den then below
  else if den < twice then below + 1
  else match tie with
    | .even => below + below % 2
    | .up => below + 1

/-- The multiple of a power of ten that is nearest to a finite number among those
that round to it, if there is one. -/
def shortestOn {f : Format} (tie : Tie) (x : Binary f) (exponent : Int) : Option Nat :=
  let (num, den) := onGrid x.units f.one exponent
  let below := num / den
  [nearerNeighbour tie num den, below, below + 1].find? (readsBack x exponent)

/-- A decimal that the search finds is read back as the number it was found for. -/
theorem readsBack_shortestOn {f : Format} {tie : Tie} {x : Binary f} {exponent : Int} {n : Nat}
    (h : shortestOn tie x exponent = some n) : readsBack x exponent n = true :=
  List.find?_some h

/-- A decimal in scientific form: its digits, of which the first is not zero, and
the power of ten that the first digit counts. -/
structure Scientific where
  row : List Nat
  exponent : Int
deriving DecidableEq, Repr

/-- The decimal `n * 10 ^ exponent` without trailing zeros. -/
def Scientific.ofNat (n : Nat) (exponent : Int) : Scientific where
  row := ((digits n).reverse.dropWhile (· == 0)).reverse
  exponent := exponent + (digits n).length - 1

/-- The greatest number of digits that a double-precision number can need. -/
def maxDigits : Nat := 17

/-- The shortest decimal that rounds to a finite number other than zero. -/
def shortest (tie : Tie) (x : Binary64) : Scientific :=
  let leading := leadingExponent x.units Format.double.one
  let found := (List.range maxDigits).findSome? fun (count : Nat) =>
    let exponent := leading - count
    (shortestOn tie x exponent).map (Scientific.ofNat · exponent)
  found.getD (Scientific.ofNat x.units leading)

end SqlFragments.Number
