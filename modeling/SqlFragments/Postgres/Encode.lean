import SqlFragments.Postgres.ColumnType
import SqlFragments.Value

/-!
# Binary parameters

A value is sent as the binary form of the type of its parameter.  A text type takes
the text form of any value; an integer goes to an integer type in whose range it is
and to a floating-point type rounded once.

Main results:

- `length_bigEndian`: the number of bytes of a number.
- `encode_null`: nothing can be bound to any type.
- `encodeChecked_of_isAccepted`: on accepted types the check changes nothing.
-/

namespace SqlFragments.Postgres

open Number

attribute [local instance (high)] instPowNat

/-! ## Bytes -/

/-- The lowest bytes of a number, the most significant first. -/
def bigEndian : Nat → Nat → List UInt8
  | 0, _ => []
  | width + 1, n => bigEndian width (n / 256) ++ [UInt8.ofNat n]

@[simp]
theorem length_bigEndian (width n : Nat) : (bigEndian width n).length = width := by
  induction width generalizing n with
  | zero => rfl
  | succ width ih => simp [bigEndian, ih]

/-- The two's complement form of an integer. -/
def twosComplement (width : Nat) (i : Int) : List UInt8 :=
  bigEndian width (i % 2 ^ (8 * width)).toNat

/-- A single-precision number. -/
def singleBytes (x : Binary32) : List UInt8 := bigEndian 4 x.toBits

/-- A double-precision number. -/
def doubleBytes (x : Binary64) : List UInt8 := bigEndian 8 x.toBits

/-! ## Failures -/

/-- Why a value cannot be sent. -/
inductive Failure where
  /-- No value can be bound to the type. -/
  | wrongType
  | tooLarge
  | tooSmall
  /-- The kind of the value cannot be bound to the type. -/
  | mismatch (kind : String) (t : ColumnType)
deriving DecidableEq, Repr

/-- The wording of a failure. -/
def Failure.message : Failure → String
  | .wrongType => "the type is not accepted"
  | .tooLarge => "number too large to fit in target type"
  | .tooSmall => "number too small to fit in target type"
  | .mismatch kind t => s!"cannot bind {kind} value to a {t.display} parameter"

/-! ## Encoding -/

/-- The bytes of a text. -/
def encodeText (text : String) (t : ColumnType) : List UInt8 :=
  let bytes := text.toUTF8.toList
  if ColumnType.versionedText.contains t.name then 1 :: bytes else bytes

/-- An integer in a type of the given number of bytes, if it is in the range. -/
def encodeInt (width : Nat) (i : Int) : Except Failure (List UInt8) :=
  if 2 ^ (8 * width - 1) ≤ i then .error .tooLarge
  else if i < -2 ^ (8 * width - 1) then .error .tooSmall
  else .ok (twosComplement width i)

/-- The bytes of a value for a parameter of a type; nothing has no bytes. -/
def encode (v : Value) (t : ColumnType) : Except Failure (Option (List UInt8)) :=
  if v.isNull then .ok none
  else if t.isText then .ok (some (encodeText v.display t))
  else
    match v, t with
    | .bool b, .builtin "bool" => .ok (some [if b then 1 else 0])
    | .int i, .builtin "int2" => (encodeInt 2 i.toInt).map some
    | .int i, .builtin "int4" => (encodeInt 4 i.toInt).map some
    | .int i, .builtin "int8" => (encodeInt 8 i.toInt).map some
    | .int i, .builtin "float4" => .ok (some (singleBytes (Binary.ofInt i.toInt)))
    | .int i, .builtin "float8" => .ok (some (doubleBytes (Binary.ofInt i.toInt)))
    | .float x, .builtin "float4" => .ok (some (singleBytes (x.convert .single)))
    | .float x, .builtin "float8" => .ok (some (doubleBytes x))
    | v, t => .error (.mismatch v.kind t)

/-- The bytes of a value, after a check that the type is accepted. -/
def encodeChecked (v : Value) (t : ColumnType) : Except Failure (Option (List UInt8)) :=
  if t.isAccepted then encode v t else .error .wrongType

/-- Nothing can be bound to any type. -/
@[simp]
theorem encode_null (t : ColumnType) : encode .null t = .ok none := rfl

/-- A text type takes every value other than nothing. -/
theorem encode_of_isText {v : Value} {t : ColumnType} (hv : v.isNull = false)
    (ht : t.isText = true) : encode v t = .ok (some (encodeText v.display t)) := by
  simp [encode, hv, ht]

/-- On accepted types the check changes nothing. -/
theorem encodeChecked_of_isAccepted {t : ColumnType} (h : t.isAccepted = true) (v : Value) :
    encodeChecked v t = encode v t := by
  simp [encodeChecked, h]

end SqlFragments.Postgres
