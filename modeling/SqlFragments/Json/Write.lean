import SqlFragments.Compiler
import SqlFragments.Value

/-!
# Writing JSON

Values are written without a tag: each kind of value has its own kind of JSON, and
a number that is not finite is written as `null`.

Main results:

- `writeList_cons`: a list of two or more values has a comma between neighbours.
-/

namespace SqlFragments.Json

open Number

/-- A control character as a four-digit escape. -/
def unicodeEscape (c : Char) : List Char :=
  let row := Nat.toDigits 16 c.toNat
  ['\\', 'u'] ++ List.replicate (4 - row.length) '0' ++ row

/-- A character inside a string. -/
def escape (c : Char) : List Char :=
  if c = '"' then ['\\', '"']
  else if c = '\\' then ['\\', '\\']
  else if c = '\x08' then ['\\', 'b']
  else if c = '\x0c' then ['\\', 'f']
  else if c = '\n' then ['\\', 'n']
  else if c = '\r' then ['\\', 'r']
  else if c = '\t' then ['\\', 't']
  else if c.toNat < 0x20 then unicodeEscape c
  else [c]

/-- A text as a string. -/
def writeString (text : String) : List Char :=
  '"' :: text.toList.flatMap escape ++ ['"']

/-- A finite number; what is not finite has no number of its own. -/
def writeFloat (x : Binary64) : List Char :=
  if x.isFinite then Layout.rounded.writeFinite x else ['n', 'u', 'l', 'l']

/-- A value without a tag. -/
def writeValue : Value → List Char
  | .null => ['n', 'u', 'l', 'l']
  | .bool b => (Value.writeBool b).toList
  | .int i => decimalInt i.toInt
  | .float x => writeFloat x
  | .text s => writeString s

/-- A list of values. -/
def writeList (values : List Value) : List Char :=
  '[' :: [','].intercalate (values.map writeValue) ++ [']']

/-- A list of two or more values has a comma between neighbours. -/
theorem writeList_cons (v w : Value) (values : List Value) :
    writeList (v :: w :: values) =
      '[' :: writeValue v ++ ',' :: (writeList (w :: values)).tail := by
  simp [writeList, List.intercalate]

/-- A command with its bindings. -/
def writeCompiled (compiled : Compiled) : List Char :=
  "\x7b\"command\":".toList ++ writeString compiled.command ++ ",\"bindings\":".toList ++
    writeList compiled.bindings ++ ['}']

end SqlFragments.Json

namespace SqlFragments

/-- A value as a JSON text. -/
def Value.toJson (v : Value) : String := String.ofList (Json.writeValue v)

/-- A list of values as a JSON text. -/
def Value.listToJson (values : List Value) : String := String.ofList (Json.writeList values)

/-- A command with its bindings as a JSON text. -/
def Compiled.toJson (compiled : Compiled) : String := String.ofList (Json.writeCompiled compiled)

end SqlFragments
