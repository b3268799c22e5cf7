import SqlFragments.Json.Document
import SqlFragments.Value

/-!
# Values from JSON

There are two ways to a value.  A document may be bound: integers have to be in the
64-bit signed range, and arrays and objects are refused by name.  Or a text may be
decoded as a value without a tag, by the first kind of value that takes it: an integer
above the range is no integer value and becomes a double-precision number, and what is no
scalar is no value.

Main results:

- `Value.decodeJson_number`: the first kind that takes a numeral.
- `Value.decodeNumeral_of_bind`: a numeral that can be bound is decoded to the same
  value.
-/

namespace SqlFragments

open Number

/-- Why a text cannot be bound: it is no readable document, or its value is refused. -/
inductive Json.Failure where
  | malformed
  | refused (e : Error)
deriving DecidableEq, Repr

namespace Value

/-- The value of a numeral that is bound; `none` if it is not finite. -/
def bindNumeral (n : Json.Numeral) : Option (Except Error Value) :=
  n.read.map fun
    | .integer i => (ofInt i).elim (.error (.unsupportedValue (.integer i.toNat))) .ok
    | .float x => .ok (.float x)

/-- Binds the value of a document. -/
def bindJson : Json → Except Json.Failure Value
  | .null => .ok .null
  | .bool b => .ok (.bool b)
  | .string units => (Json.text? units).elim (.error .malformed) fun s => .ok (.text s)
  | .number n =>
    match bindNumeral n with
    | none => .error .malformed
    | some (.ok v) => .ok v
    | some (.error e) => .error (.refused e)
  | .array _ => .error (.refused (.unsupportedValue .array))
  | .object _ => .error (.refused (.unsupportedValue .object))

/-! ## Kinds of values -/

/-- Takes the document for nothing. -/
def nullOf? : Json → Option Value
  | .null => some .null
  | _ => none

/-- Takes truth values. -/
def boolOf? : Json → Option Value
  | .bool b => some (.bool b)
  | _ => none

/-- Takes numerals of integers in the 64-bit signed range. -/
def intOf? : Json → Option Value
  | .number n => n.read.bind fun
    | .integer i => ofInt i
    | .float _ => none
  | _ => none

/-- Takes numerals, and rounds integers to nearest. -/
def floatOf? : Json → Option Value
  | .number n => n.read.map fun
    | .integer i => .float (Binary.ofInt i)
    | .float x => .float x
  | _ => none

/-- Takes texts. -/
def textOf? : Json → Option Value
  | .string units => (Json.text? units).map .text
  | _ => none

/-- The kinds of values, in the order in which they are tried. -/
def kinds : List (Json → Option Value) := [nullOf?, boolOf?, intOf?, floatOf?, textOf?]

/-- Decodes the value of a document without a tag: the first kind that takes it decides. -/
def decodeJson (document : Json) : Option Value := kinds.findSome? fun take => take document

@[simp]
theorem decodeJson_null : decodeJson .null = some .null := rfl

@[simp]
theorem decodeJson_bool (b : Bool) : decodeJson (.bool b) = some (.bool b) := rfl

@[simp]
theorem decodeJson_array (elements : List Json) : decodeJson (.array elements) = none := rfl

@[simp]
theorem decodeJson_object (members : List (List Nat × Json)) :
    decodeJson (.object members) = none := rfl

@[simp]
theorem decodeJson_string (units : List Nat) :
    decodeJson (.string units) = (Json.text? units).map .text := by
  simp only [decodeJson, kinds, List.findSome?_cons, List.findSome?_nil, nullOf?, boolOf?, intOf?,
    floatOf?, textOf?]
  cases Json.text? units <;> rfl

/-- The value of a numeral that is decoded; `none` if it is not finite. -/
def decodeNumeral (n : Json.Numeral) : Option Value :=
  n.read.map fun
    | .integer i => (ofInt i).getD (.float (Binary.ofInt i))
    | .float x => .float x

/-- A numeral is taken as an integer where it can be, and otherwise as a double-precision
number. -/
@[simp]
theorem decodeJson_number (n : Json.Numeral) : decodeJson (.number n) = decodeNumeral n := by
  simp only [decodeJson, kinds, List.findSome?_cons, List.findSome?_nil, nullOf?, boolOf?, intOf?,
    floatOf?, textOf?, decodeNumeral]
  cases n.read with
  | none => rfl
  | some reading =>
    cases reading with
    | float x => rfl
    | integer i =>
      simp only [Option.bind_some, Option.map_some]
      cases ofInt i <;> rfl

/-! ## Texts -/

/-- Binds the value of a text. -/
def bindText (text : String) : Except Json.Failure Value :=
  match Json.parseReadable text with
  | none => .error .malformed
  | some document => bindJson document

/-- Decodes the value of a text. -/
def decodeText (text : String) : Option Value := (Json.parseReadable text).bind decodeJson

/-- Decodes the list of values of a text. -/
def decodeListText (text : String) : Option (List Value) :=
  match Json.parseReadable text with
  | some (.array elements) => elements.mapM decodeJson
  | _ => none

/-- A numeral that can be bound is decoded to the same value. -/
theorem decodeNumeral_of_bind {n : Json.Numeral} {v : Value}
    (h : bindNumeral n = some (.ok v)) : decodeNumeral n = some v := by
  unfold bindNumeral at h
  unfold decodeNumeral
  cases hread : n.read with
  | none => simp [hread] at h
  | some reading =>
    cases reading with
    | float x => simpa [hread] using h
    | integer i =>
      simp only [hread, Option.map_some, Option.some.injEq] at h ⊢
      generalize ofInt i = found at h ⊢
      cases found <;> simp_all

end Value

end SqlFragments
