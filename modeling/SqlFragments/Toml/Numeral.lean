import SqlFragments.Number.Hexadecimal
import SqlFragments.Number.Scientific

/-!
# Numerals of TOML

A numeral is an integer in one of four bases or, with a point or an exponent, a
double-precision number in decimal.  An underscore may stand between two digits.  An
integer takes at most 128 bits, and only what is written as infinite is infinite.

Main results:

- `Numeral.ofInt?_eq_some_iff`: which integers a numeral stands for.
- `Numeral.ofReal?_eq_some_iff`: a number that is read from digits is finite.
-/

namespace SqlFragments

/-- A number of a document. -/
inductive Toml.Numeral where
  | integer (n : Int)
  | real (x : Number.Binary64)
deriving DecidableEq, Repr

namespace Toml

open Number

attribute [local instance (high)] instPowNat

/-! ## Digits -/

/-- The value of a digit of a base. -/
def digitIn (base : Nat) (c : Char) : Option Nat := (hexValue c).filter (· < base)

/-- The digits that go on a row, and the rest.  An underscore needs a digit on either
side. -/
def readMore (base : Nat) : List Char → List Nat × List Char
  | [] => ([], [])
  | '_' :: c :: rest =>
    match digitIn base c with
    | some d =>
      let (row, rest) := readMore base rest
      (d :: row, rest)
    | none => ([], '_' :: c :: rest)
  | c :: rest =>
    match digitIn base c with
    | some d =>
      let (row, rest) := readMore base rest
      (d :: row, rest)
    | none => ([], c :: rest)

/-- Reads a row of at least one digit. -/
def readRow (base : Nat) : List Char → Option (List Nat × List Char)
  | [] => none
  | c :: rest => (digitIn base c).map fun d =>
    let (row, rest) := readMore base rest
    (d :: row, rest)

/-! ## Ranges -/

namespace Numeral

/-- The numeral of an integer that takes at most 128 bits, with a sign or without one. -/
def ofInt? (n : Int) : Option Numeral :=
  if -2 ^ (127 : Nat) ≤ n ∧ n < 2 ^ (128 : Nat) then some (.integer n) else none

/-- The numeral of a number that rounding has left finite. -/
def ofReal? (x : Binary64) : Option Numeral := if x.isFinite then some (.real x) else none

/-- A numeral stands for the integers that take at most 128 bits. -/
theorem ofInt?_eq_some_iff {n : Int} {m : Numeral} :
    ofInt? n = some m ↔ -2 ^ (127 : Nat) ≤ n ∧ n < 2 ^ (128 : Nat) ∧ .integer n = m := by
  simp [ofInt?, and_assoc]

/-- A number that is read from digits is finite. -/
theorem ofReal?_eq_some_iff {x : Binary64} {m : Numeral} :
    ofReal? x = some m ↔ x.isFinite = true ∧ .real x = m := by
  simp [ofReal?]

/-! ## The grammar -/

/-- Reads the digits before the point: one zero, or digits that do not start with one. -/
def readWhole : List Char → Option (List Nat × List Char)
  | '0' :: rest => some ([0], rest)
  | text => readRow 10 text

/-- Reads a point and the digits after it, if there is a point. -/
def readPlaces : List Char → Option (Option (List Nat) × List Char)
  | '.' :: rest => (readRow 10 rest).map fun (row, rest) => (some row, rest)
  | text => some (none, text)

/-- Reads an exponent of ten, if there is one. -/
def readPower : List Char → Option (Option Int × List Char)
  | [] => some (none, [])
  | c :: rest =>
    if c = 'e' ∨ c = 'E' then do
      let (negative, rest) := readSign rest
      let (row, rest) ← readRow 10 rest
      return (some (if negative then -(ofDigits row : Int) else ofDigits row), rest)
    else some (none, c :: rest)

/-- The numeral in decimal that a text after the sign is. -/
def ofDecimal (negative : Bool) (text : List Char) : Option Numeral := do
  let (whole, rest) ← readWhole text
  let (places, rest) ← readPlaces rest
  let (power, rest) ← readPower rest
  if !rest.isEmpty then none
  else if places.isNone && power.isNone then
    let n : Int := ofDigits whole
    ofInt? (if negative then -n else n)
  else
    let row := places.getD []
    let x := nearestDecimal (whole ++ row) (power.getD 0 - row.length)
    ofReal? (if negative then x.neg else x)

/-- The integer in a base that a text is. -/
def ofBase (base : Nat) (text : List Char) : Option Numeral :=
  match readRow base text with
  | some (row, []) => ofInt? (row.foldl (fun n d => base * n + d) 0 : Nat)
  | _ => none

/-- What stands for no number. -/
def notANumber : Numeral := .real (Binary.ofBits 0x7FF8000000000000)

/-- The numeral that a text after the sign is, unless it names its base. -/
def ofUnsigned (negative : Bool) : List Char → Option Numeral
  | ['i', 'n', 'f'] => some (.real (Binary.infinite negative))
  | ['n', 'a', 'n'] => some notANumber
  | text => ofDecimal negative text

/-- The numeral that a word is.  An integer that names its base has no sign. -/
def ofWord : List Char → Option Numeral
  | '0' :: 'x' :: rest => ofBase 16 rest
  | '0' :: 'o' :: rest => ofBase 8 rest
  | '0' :: 'b' :: rest => ofBase 2 rest
  | '+' :: rest => ofUnsigned false rest
  | '-' :: rest => ofUnsigned true rest
  | text => ofUnsigned false text

end Numeral

end Toml

end SqlFragments
