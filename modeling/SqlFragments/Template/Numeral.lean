import SqlFragments.Number.Hexadecimal
import SqlFragments.Number.Scientific
import SqlFragments.Text.Word
import SqlFragments.Value

/-!
# Numerals in expressions

A numeral is an integer in one of four bases or, with a point or an exponent, a
floating-point number in decimal, which is rounded once to nearest.  Underscores may
stand between the digits.  A word right behind a numeral is its suffix, which names
a type and changes nothing.  An exponent in front of a character that goes on with a
word, but starts none, belongs to the suffix of an integer.

Main results:

- `skipSuffix_ends`: what follows a suffix does not go on with a word.
-/

namespace SqlFragments.Template

open Number

/-! ## Digits -/

/-- The digits that a text starts with, underscores among them aside, and the rest. -/
def readRun : List Char → List Nat × List Char
  | [] => ([], [])
  | c :: rest =>
    if c = '_' then readRun rest
    else
      match digitValue c with
      | some d => (d :: (readRun rest).1, (readRun rest).2)
      | none => ([], c :: rest)

/-! ## Integers -/

/-- The base that a prefix of an integer gives, and the digits after the prefix. -/
def integerBase : List Char → Nat × List Char
  | '0' :: 'x' :: rest => (16, rest)
  | '0' :: 'o' :: rest => (8, rest)
  | '0' :: 'b' :: rest => (2, rest)
  | text => (10, text)

/-- Reads digits of a base after those that stand for `n`.  A decimal digit that the base
does not have is refused, and any other character ends the digits. -/
def readInBase (base n : Nat) : List Char → Option (Nat × List Char)
  | [] => some (n, [])
  | c :: rest =>
    if c = '_' then readInBase base n rest
    else
      match hexValue c with
      | none => some (n, c :: rest)
      | some d =>
        if d < base then readInBase base (base * n + d) rest
        else if d < 10 then none
        else some (n, c :: rest)

/-- Reads an integer, which has a digit at least. -/
def readInteger (text : List Char) : Option (Nat × List Char) :=
  let (base, row) := integerBase text
  match row.dropWhile (· == '_') with
  | [] => none
  | c :: rest =>
    if (hexValue c).any (· < base) then readInBase base 0 (c :: rest) else none

/-! ## Floating-point numbers -/

/-- Whether the character after a point allows the point to be part of a number. -/
def endsPoint : List Char → Bool
  | [] => true
  | c :: _ => c != '.' && !Text.startsWord c

/-- Reads a point and the digits after it, if there is a point. -/
def readPlaces : List Char → Option (Option (List Nat) × List Char)
  | '.' :: rest => if endsPoint rest then some (some (readRun rest).1, (readRun rest).2) else none
  | text => some (none, text)

/-- Reads an exponent of ten, which has a digit at least. -/
def readPower : List Char → Option (Int × List Char)
  | [] => none
  | c :: rest =>
    if c = 'e' ∨ c = 'E' then
      let (negative, row) := readSign (rest.dropWhile (· == '_'))
      match readRun row with
      | ([], _) => none
      | (row, rest) => some (if negative then -(ofDigits row : Int) else ofDigits row, rest)
    else none

/-- Reads a floating-point number, which has a point or an exponent. -/
def readReal (text : List Char) : Option (Binary64 × List Char) := do
  let (whole, rest) := readRun text
  let (places, rest) ← readPlaces rest
  let row := whole ++ places.getD []
  let scale : Int := (places.getD []).length
  match readPower rest with
  | some (power, rest) => some (nearestDecimal row (power - scale), rest)
  | none => if places.isSome then some (nearestDecimal row (-scale), rest) else none

/-! ## Numerals -/

/-- The text after the suffix that it may start with.  A numeral cannot end in front of a
character that a word goes on with. -/
def skipSuffix (text : List Char) : Option (List Char) :=
  let rest := Text.skipWord text
  if rest.head?.any Text.continuesWord then none else some rest

/-- What follows a suffix does not go on with a word. -/
theorem skipSuffix_ends {text rest : List Char} {c : Char}
    (h : skipSuffix text = some (c :: rest)) : Text.continuesWord c = false := by
  simp only [skipSuffix] at h
  split at h
  · simp at h
  · rename_i hends
    simp only [Option.some.injEq] at h
    simpa [h] using hends

/-- Reads a floating-point number and its suffix. -/
def readRealNumeral (text : List Char) : Option (Value × List Char) := do
  let (x, rest) ← readReal text
  return (.float x, ← skipSuffix rest)

/-- Reads an integer and its suffix. -/
def readIntegerNumeral (text : List Char) : Option (Value × List Char) := do
  let (n, rest) ← readInteger text
  let v ← Value.ofInt n
  return (v, ← skipSuffix rest)

/-- Reads a numeral, which starts with a digit, and its suffix.  What is no floating-point
number may still be an integer, whose suffix can look like an exponent. -/
def readNumeral (text : List Char) : Option (Value × List Char) :=
  (readRealNumeral text).or (readIntegerNumeral text)

end SqlFragments.Template
