import SqlFragments.Error
import SqlFragments.Number.Layout

/-!
# Scalar values

A value is a scalar that a command takes as a bound parameter: nothing, a truth
value, a 64-bit signed integer, a double-precision number or a text.  Values
reach a command only as bindings and never as text of the command.

Main results:

- `Value.ofInt_eq_some_iff`: an integer is a value exactly in the 64-bit range, and
  it keeps its numeric value.
- `Value.ofNat_eq_ok_iff`: the same for natural numbers, with the error otherwise.
-/

namespace SqlFragments

open Number

attribute [local instance (high)] instPowNat

/-- A scalar to be bound as one parameter. -/
inductive Value where
  | null
  | bool (b : Bool)
  | int (i : Int64)
  | float (x : Binary64)
  | text (s : String)
deriving DecidableEq, Repr

namespace Value

/-! ## Values from other scalars -/

/-- An integer, if it is in the 64-bit signed range. -/
def ofInt (i : Int) : Option Value :=
  if -2 ^ (63 : Nat) ≤ i ∧ i < 2 ^ (63 : Nat) then some (.int (Int64.ofInt i)) else none

/-- A natural number, refused above the 64-bit signed range. -/
def ofNat (n : Nat) : Except Error Value :=
  (ofInt n).elim (.error (.unsupportedValue (.integer n))) .ok

/-- A single-precision number, widened exactly. -/
def ofSingle (x : Binary32) : Value := .float (x.convert .double)

/-- A value that may be absent. -/
def ofOption : Option Value → Value
  | some v => v
  | none => .null

/-- An integer is a value exactly in the 64-bit range, and keeps its numeric value. -/
theorem ofInt_eq_some_iff {i : Int} {v : Value} :
    ofInt i = some v ↔ ∃ n : Int64, v = .int n ∧ n.toInt = i := by
  constructor
  · intro h
    simp only [ofInt] at h
    split at h
    · rename_i hrange
      exact ⟨Int64.ofInt i, (Option.some.inj h).symm,
        Int64.toInt_ofInt_of_le hrange.1 hrange.2⟩
    · simp at h
  · rintro ⟨n, rfl, rfl⟩
    have hle := n.le_toInt
    have hlt := n.toInt_lt
    unfold ofInt
    split
    · rw [Int64.ofInt_toInt]
    · omega

theorem ofNat_eq_ok_iff {n : Nat} {v : Value} :
    ofNat n = .ok v ↔ ∃ i : Int64, v = .int i ∧ i.toInt = n := by
  rw [← ofInt_eq_some_iff, ofNat]
  generalize ofInt n = found
  cases found <;> simp

/-! ## Payloads -/

/-- The name of the kind of a value. -/
def kind : Value → String
  | .null => "null"
  | .bool _ => "bool"
  | .int _ => "int"
  | .float _ => "float"
  | .text _ => "text"

/-- Whether this is the value for nothing. -/
def isNull : Value → Bool
  | .null => true
  | _ => false

/-- The text of a text. -/
def text? : Value → Option String
  | .text s => some s
  | _ => none

/-- The integer of an integer. -/
def int? : Value → Option Int64
  | .int i => some i
  | _ => none

/-- The number of an integer, rounded to nearest, or of a double-precision number. -/
def float? : Value → Option Binary64
  | .int i => some (Binary.ofInt i.toInt)
  | .float x => some x
  | _ => none

/-- The truth value of a truth value. -/
def bool? : Value → Option Bool
  | .bool b => some b
  | _ => none

/-- Equality of values with numeric equality of double-precision numbers. -/
def equals : Value → Value → Bool
  | .float x, .float y => x.equals y
  | v, w => v == w

/-! ## Text form -/

/-- A truth value in lower case. -/
def writeBool (b : Bool) : String := if b then "true" else "false"

/-- An integer in decimal. -/
def writeInt (i : Int64) : String := String.ofList (decimalInt i.toInt)

/-- A value as plain text: a text stands for itself, without quotes. -/
def display : Value → String
  | .null => "NULL"
  | .bool b => writeBool b
  | .int i => writeInt i
  | .float x => Layout.plain.write x
  | .text s => s

end Value

end SqlFragments
