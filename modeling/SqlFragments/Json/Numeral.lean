import SqlFragments.Number.Binary
import SqlFragments.Number.Decimal

/-!
# Numerals of JSON

A numeral without fraction and exponent stands for an integer while it fits a
64-bit word; every other numeral stands for a double-precision number.  Such a
number is found in two steps.  As many leading digits as fit a word are taken
exactly and the digits after them only count, and then the taken digits are
rounded to double precision and are multiplied or divided by a power of ten,
which is rounded itself.

Main results:

- `readNumeral_shorter`: a numeral takes at least one character.
- `Numeral.read_integer`: which integer a numeral stands for.
-/

namespace SqlFragments.Json

open Number

attribute [local instance (high)] instPowNat

/-! ## The grammar -/

/-- A number as it is written. -/
structure Numeral where
  negative : Bool
  /-- The digits before the point. -/
  whole : List Nat
  /-- The digits after the point; empty if there is no point. -/
  fraction : List Nat
  /-- Whether the exponent is negative, and its digits. -/
  exponent : Option (Bool × List Nat)
deriving DecidableEq, Repr

/-- Reads a row of at least one digit. -/
def readRow (text : List Char) : Option (List Nat × List Char) :=
  if (readDigits text).1.isEmpty then none else some (readDigits text)

/-- Reads the digits before the point: one zero, or digits that do not start with one. -/
def readWhole : List Char → Option (List Nat × List Char)
  | '0' :: rest => some ([0], rest)
  | text => readRow text

/-- Reads a point and the digits after it, if there is a point. -/
def readFraction : List Char → Option (List Nat × List Char)
  | '.' :: text => readRow text
  | text => some ([], text)

/-- Reads the digits of an exponent with their sign. -/
def readExponentDigits (text : List Char) : Option (Option (Bool × List Nat) × List Char) :=
  let (negative, text) := readSign text
  (readRow text).map fun (row, rest) => (some (negative, row), rest)

/-- Reads an exponent, if there is one. -/
def readExponent : List Char → Option (Option (Bool × List Nat) × List Char)
  | 'e' :: text => readExponentDigits text
  | 'E' :: text => readExponentDigits text
  | text => some (none, text)

/-- Reads a numeral after its sign. -/
def readUnsigned (negative : Bool) (text : List Char) : Option (Numeral × List Char) := do
  let (whole, text) ← readWhole text
  let (fraction, text) ← readFraction text
  let (exponent, text) ← readExponent text
  return (⟨negative, whole, fraction, exponent⟩, text)

/-- Reads a numeral. -/
def readNumeral : List Char → Option (Numeral × List Char)
  | '-' :: text => readUnsigned true text
  | text => readUnsigned false text

/-! ## What is left of the text -/

/-- A row of digits takes at least one character. -/
theorem readRow_shorter {text after : List Char} {row : List Nat}
    (h : readRow text = some (row, after)) : after.length < text.length := by
  cases text with
  | nil => simp [readRow, readDigits] at h
  | cons c rest =>
    have hle := length_readDigits_le rest
    cases hc : digitValue c with
    | none => simp [readRow, readDigits, hc] at h
    | some d =>
      simp only [readRow, readDigits, hc, List.isEmpty_cons, Bool.false_eq_true, if_false,
        Option.some.injEq, Prod.mk.injEq] at h
      rw [← h.2, List.length_cons]
      omega

/-- A whole part takes at least one character. -/
theorem readWhole_shorter {text after : List Char} {row : List Nat}
    (h : readWhole text = some (row, after)) : after.length < text.length := by
  unfold readWhole at h
  split at h
  · cases h
    simp
  · exact readRow_shorter h

/-- A fraction, which may be absent, leaves no more text than there was. -/
theorem readFraction_le {text after : List Char} {row : List Nat}
    (h : readFraction text = some (row, after)) : after.length ≤ text.length := by
  unfold readFraction at h
  split at h
  · exact Nat.le_succ_of_le (Nat.le_of_lt (readRow_shorter h))
  · cases h
    exact Nat.le_refl _

/-- The sign and digits of an exponent leave no more text than there was. -/
theorem readExponentDigits_le {text after : List Char} {exponent : Option (Bool × List Nat)}
    (h : readExponentDigits text = some (exponent, after)) : after.length ≤ text.length := by
  obtain ⟨⟨row, rest⟩, hrow, heq⟩ := Option.map_eq_some_iff.mp h
  obtain ⟨_, rfl⟩ := Prod.mk.inj heq
  exact Nat.le_trans (Nat.le_of_lt (readRow_shorter hrow)) (length_readSign_le text)

/-- An exponent, which may be absent, leaves no more text than there was. -/
theorem readExponent_le {text after : List Char} {exponent : Option (Bool × List Nat)}
    (h : readExponent text = some (exponent, after)) : after.length ≤ text.length := by
  unfold readExponent at h
  split at h
  · exact Nat.le_succ_of_le (readExponentDigits_le h)
  · exact Nat.le_succ_of_le (readExponentDigits_le h)
  · cases h
    exact Nat.le_refl _

/-- A numeral without its sign takes at least one character. -/
theorem readUnsigned_shorter {negative : Bool} {text after : List Char} {n : Numeral}
    (h : readUnsigned negative text = some (n, after)) : after.length < text.length := by
  simp only [readUnsigned, Option.bind_eq_bind, Option.bind_eq_some_iff, Option.pure_def,
    Option.some.injEq, Prod.exists, Prod.mk.injEq] at h
  obtain ⟨whole, afterWhole, hwhole, fraction, afterFraction, hfraction, exponent,
    afterExponent, hexponent, _, rfl⟩ := h
  have h1 := readWhole_shorter hwhole
  have h2 := readFraction_le hfraction
  have h3 := readExponent_le hexponent
  omega

/-- A numeral takes at least one character. -/
theorem readNumeral_shorter {text after : List Char} {n : Numeral}
    (h : readNumeral text = some (n, after)) : after.length < text.length := by
  unfold readNumeral at h
  split at h
  · exact Nat.lt_succ_of_lt (readUnsigned_shorter h)
  · exact readUnsigned_shorter h

/-! ## The number that a numeral stands for -/

/-- What a numeral stands for. -/
inductive Numeral.Reading where
  | integer (i : Int)
  | float (x : Binary64)
deriving DecidableEq, Repr

namespace Numeral

/-- The number of values of a word. -/
def wordSize : Nat := 2 ^ (64 : Nat)

/-- Appends decimal digits to a number while the result fits a word; what is left
over does not fit. -/
def takeDigits (n : Nat) : List Nat → Nat × List Nat
  | [] => (n, [])
  | d :: row => if 10 * n + d < wordSize then takeDigits (10 * n + d) row else (n, d :: row)

/-- The greatest power of ten that is a double-precision number. -/
def maxPower : Nat := 308

/-- A power of ten in double precision. -/
def power (n : Nat) : Binary64 := Binary.ofNat (10 ^ n)

/-- Multiplies by a power of ten, unless the product is infinite. -/
def scaleUp (x : Binary64) (n : Nat) : Option Binary64 :=
  if n ≤ maxPower then
    let product := x.mul (power n)
    if product.isInfinite then none else some product
  else if x.isZero then some x
  else none

/-- Divides by a power of ten, by the greatest one as long as the divisor exceeds it. -/
def scaleDown (x : Binary64) (n : Nat) : Binary64 :=
  if n ≤ maxPower then x.div (power n)
  else if x.isZero then x
  else scaleDown (x.div (power maxPower)) (n - maxPower)
termination_by n
decreasing_by
  simp only [maxPower] at *
  omega

/-- The exponent that is written, as an integer. -/
def writtenExponent (n : Numeral) : Int :=
  match n.exponent with
  | none => 0
  | some (negative, row) => if negative then -(ofDigits row : Int) else ofDigits row

/-- The double-precision number that a numeral stands for, unless it is infinite. -/
def readFloat (n : Numeral) : Option Binary64 :=
  let (taken, uncounted) := takeDigits 0 n.whole
  let (significand, ignored) := takeDigits taken n.fraction
  let exponent := n.writtenExponent + uncounted.length -
    ((n.fraction.length : Int) - ignored.length)
  let x : Binary64 := Binary.ofNat significand
  let scaled := if 0 ≤ exponent then scaleUp x exponent.toNat
    else some (scaleDown x (-exponent).toNat)
  scaled.map fun y => if n.negative then y.neg else y

/-- Whether there is neither a fraction nor an exponent. -/
def isInteger (n : Numeral) : Bool := n.fraction.isEmpty && n.exponent.isNone

/-- What a numeral stands for; nothing if that would be infinite.  A negative integer
below the 64-bit signed range and the negative zero are double-precision numbers. -/
def read (n : Numeral) : Option Reading :=
  let magnitude := ofDigits n.whole
  if n.isInteger && decide (magnitude < wordSize) then
    if n.negative then
      if magnitude = 0 ∨ 2 ^ (63 : Nat) < magnitude then
        some (.float (Binary.ofNat magnitude : Binary64).neg)
      else some (.integer (-magnitude))
    else some (.integer magnitude)
  else n.readFloat.map .float

/-- Which integer a numeral stands for: the one that is written, between the least
64-bit signed integer and the greatest word. -/
theorem read_integer {n : Numeral} {i : Int} (h : n.read = some (.integer i)) :
    n.isInteger = true ∧ i = (if n.negative then -(ofDigits n.whole : Int) else ofDigits n.whole) ∧
      -2 ^ (63 : Nat) ≤ i ∧ i < 2 ^ (64 : Nat) := by
  simp only [read] at h
  split at h
  · rename_i hinteger
    obtain ⟨hshape, hfits⟩ := (Bool.and_eq_true _ _).mp hinteger
    have hfits := of_decide_eq_true hfits
    refine ⟨hshape, ?_⟩
    simp only [wordSize] at hfits
    split at h
    · rename_i hsign
      split at h
      · simp at h
      · cases h
        simp only [hsign, if_true, true_and]
        omega
    · rename_i hsign
      cases h
      simp only [hsign]
      simp
      omega
  · simp at h

end Numeral

end SqlFragments.Json
