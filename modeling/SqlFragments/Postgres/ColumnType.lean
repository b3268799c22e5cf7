/-!
# Parameter types

A parameter has a type that is built into the server or a custom one.  A custom
type is never equal to a built-in one, whatever its name; only the types that hold
text in an extension are recognized by name alone.

Main results:

- `ColumnType.isText_custom`: when a custom type holds text.
-/

namespace SqlFragments.Postgres

/-- The type of a parameter. -/
inductive ColumnType where
  | builtin (name : String)
  | custom (schema name : String)
deriving DecidableEq, Repr

namespace ColumnType

/-- The name without a schema. -/
def name : ColumnType → String
  | .builtin name => name
  | .custom _ name => name

/-- The name with the schema, unless the schema is one that need not be named. -/
def display : ColumnType → String
  | .builtin name => name
  | .custom schema name =>
    if schema = "public" ∨ schema = "pg_catalog" then name else s!"{schema}.{name}"

/-- The built-in types that hold text. -/
def builtinText : List String := ["text", "varchar", "bpchar", "name", "unknown"]

/-- The types whose binary form starts with a version byte. -/
def versionedText : List String := ["ltree", "lquery", "ltxtquery"]

/-- The types of extensions that hold text. -/
def extensionText : List String := "citext" :: versionedText

/-- Whether values of every kind can be bound to the type as text. -/
def isText : ColumnType → Bool
  | .builtin name => builtinText.contains name || extensionText.contains name
  | .custom _ name => extensionText.contains name

/-- The built-in types with a binary form of fixed width. -/
def fixedWidth : List ColumnType :=
  [.builtin "bool", .builtin "int2", .builtin "int4", .builtin "int8", .builtin "float4",
    .builtin "float8"]

/-- Whether some value other than nothing can be bound to the type. -/
def isAccepted (t : ColumnType) : Bool := t.isText || fixedWidth.contains t

/-- A custom type holds text exactly when its name is one of an extension's. -/
theorem isText_custom (schema name : String) :
    (custom schema name).isText = true ↔ name ∈ extensionText := by
  simp [isText]

end ColumnType

end SqlFragments.Postgres
