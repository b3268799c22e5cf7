import SqlFragments.Builder
import SqlFragments.Compiler
import SqlFragments.Json.Document

/-!
# Settings from JSON

Settings are read from an object by the names of its members or from an array by
position; what is absent keeps its default.  Members with other names are passed
over whatever their value, and a name that is read must not occur twice.

Main results:

- `fieldOnce_nil`: an object without members leaves every setting at its default.
-/

namespace SqlFragments

namespace Json

/-- The members of an object by name; nothing if a key is no text. -/
def fields (members : List (List Nat × Json)) : Option (List (String × Json)) :=
  members.mapM fun (key, v) => (text? key).map (·, v)

/-- The value under a name, if there is one; a failure if there are several. -/
def fieldOnce (name : String) (members : List (String × Json)) : Option (Option Json) :=
  match members.filter (·.1 == name) with
  | [] => some none
  | [(_, v)] => some (some v)
  | _ => none

@[simp]
theorem fieldOnce_nil (name : String) : fieldOnce name [] = some none := rfl

/-- Reads a setting if it is present, and keeps the default if it is not. -/
def readOr {α : Type} (default : α) (read : Json → Option α) : Option Json → Option α
  | none => some default
  | some v => read v

/-- A truth value. -/
def bool? : Json → Option Bool
  | .bool b => some b
  | _ => none

/-- A text or nothing. -/
def optionalText? : Json → Option (Option String)
  | .null => some none
  | .string units => (text? units).map some
  | _ => none

end Json

/-- The style that a value names: a text, or an object with the name alone and nothing
under it. -/
def Placeholder.ofJson : Json → Option Placeholder
  | .string units => (Json.text? units).bind ofName
  | .object [(key, .null)] => (Json.text? key).bind ofName
  | _ => none

/-- The options of a builder. -/
def BuilderOptions.ofJson : Json → Option BuilderOptions
  | .object members => do
    let fields ← Json.fields members
    let join ← Json.fieldOnce "join" fields
    return ⟨← Json.readOr none Json.optionalText? join⟩
  | .array [] => some ⟨none⟩
  | .array [join] => (Json.optionalText? join).map (⟨·⟩)
  | _ => none

/-- A compiler with a placeholder style and a choice on blanks, where they are given. -/
def Compiler.ofSettings (placeholder normalizesBlanks : Option Json) : Option Compiler := do
  let placeholder ← Json.readOr .questionMark Placeholder.ofJson placeholder
  let normalizesBlanks ← Json.readOr false Json.bool? normalizesBlanks
  return ⟨placeholder, normalizesBlanks, none⟩

/-- A compiler from its settings. -/
def Compiler.ofJson : Json → Option Compiler
  | .object members => do
    let fields ← Json.fields members
    let placeholder ← Json.fieldOnce "placeholder" fields
    let normalizesBlanks ← Json.fieldOnce "normalize_whitespace" fields
    ofSettings placeholder normalizesBlanks
  | .array [] => ofSettings none none
  | .array [placeholder] => ofSettings placeholder none
  | .array [placeholder, normalizesBlanks] => ofSettings placeholder normalizesBlanks
  | _ => none

/-- The style that a text names. -/
def Placeholder.ofJsonText (text : String) : Option Placeholder :=
  (Json.parse text).bind ofJson

/-- The options of a builder from a text. -/
def BuilderOptions.ofJsonText (text : String) : Option BuilderOptions :=
  (Json.parse text).bind ofJson

/-- A compiler from the settings in a text. -/
def Compiler.ofJsonText (text : String) : Option Compiler :=
  (Json.parse text).bind ofJson

end SqlFragments
