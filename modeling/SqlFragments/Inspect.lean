import SqlFragments.Compiler
import SqlFragments.Text.Unprinted

/-!
# Inspection texts

An inspection text shows the structure of a value, a query or a compiler to a
reader: every value under the name of its kind, texts between quotes with what
cannot be seen escaped, and trees as nested lists, on one line or one element a
line.

Main results:

- `escape_of_printed`: a printed character other than a quote or a backslash is
  shown as it stands.
-/

namespace SqlFragments

open Number

namespace Inspect

/-! ## Quoted texts -/

/-- A natural number in lower-case hexadecimal. -/
def hexadecimal (n : Nat) : List Char := Nat.toDigits 16 n

/-- A character inside a quoted text. -/
def escape (c : Char) : List Char :=
  if c = '"' then ['\\', '"']
  else if c = '\\' then ['\\', '\\']
  else if c = '\n' then ['\\', 'n']
  else if c = '\r' then ['\\', 'r']
  else if c = '\t' then ['\\', 't']
  else if c = '\x00' then ['\\', '0']
  else if Text.isUnprinted c then ['\\', 'u', '{'] ++ hexadecimal c.toNat ++ ['}']
  else [c]

/-- A text between quotes. -/
def quote (text : String) : String :=
  String.ofList ('"' :: text.toList.flatMap escape ++ ['"'])

/-- A printed character other than a quote or a backslash is shown as it stands. -/
theorem escape_of_printed {c : Char} (hprinted : Text.isUnprinted c = false) (hquote : c ≠ '"')
    (hbackslash : c ≠ '\\') : escape c = [c] := by
  have hn : c ≠ '\n' := by rintro rfl; exact absurd hprinted (by decide)
  have hr : c ≠ '\r' := by rintro rfl; exact absurd hprinted (by decide)
  have ht : c ≠ '\t' := by rintro rfl; exact absurd hprinted (by decide)
  have hnul : c ≠ '\x00' := by rintro rfl; exact absurd hprinted (by decide)
  simp [escape, hquote, hbackslash, hn, hr, ht, hnul, hprinted]

/-! ## Outlines -/

/-- What is shown of an object: a text, a named object around another one, or a list. -/
inductive Outline where
  | atom (text : String)
  | named (name : String) (inner : Outline)
  | list (elements : List Outline)

/-- Four spaces for each level of nesting. -/
def indentation (depth : Nat) : String := String.ofList (List.replicate (4 * depth) ' ')

mutual

/-- An outline on one line. -/
def Outline.oneLine : Outline → String
  | .atom text => text
  | .named name inner => name ++ "(" ++ inner.oneLine ++ ")"
  | .list elements => "[" ++ ", ".intercalate (Outline.allOneLine elements) ++ "]"

/-- Several outlines, each on one line. -/
def Outline.allOneLine : List Outline → List String
  | [] => []
  | element :: rest => element.oneLine :: Outline.allOneLine rest

end

mutual

/-- An outline with one element a line, `depth` levels deep; an empty list stays on
its line. -/
def Outline.indented (depth : Nat) : Outline → String
  | .atom text => text
  | .named name inner =>
    name ++ "(\n" ++ indentation (depth + 1) ++ inner.indented (depth + 1) ++ ",\n" ++
      indentation depth ++ ")"
  | .list elements =>
    if elements.isEmpty then "[]"
    else "[\n" ++ Outline.allIndented (depth + 1) elements ++ indentation depth ++ "]"

/-- Several outlines one below the other, each with a comma after it. -/
def Outline.allIndented (depth : Nat) : List Outline → String
  | [] => ""
  | element :: rest =>
    indentation depth ++ element.indented depth ++ ",\n" ++ Outline.allIndented depth rest

end

end Inspect

open Inspect

/-- The outline of a value. -/
def Value.outline : Value → Outline
  | .null => .atom "Null"
  | .bool b => .named "Bool" (.atom (writeBool b))
  | .int i => .named "Int" (.atom (writeInt i))
  | .float x => .named "Float" (.atom (Layout.marked.write x))
  | .text s => .named "Text" (.atom (quote s))

/-- A value on one line. -/
def Value.inspect (v : Value) : String := v.outline.oneLine

mutual

/-- The outline of a segment. -/
def Segment.outline : Segment → Outline
  | .literal code => .named "Literal" (.atom (quote code))
  | .value v => .named "Value" v.outline
  | .subtree inner => .named "Subtree" (.list (Segment.outlines inner))

/-- The outlines of a sequence of segments. -/
def Segment.outlines : List Segment → List Outline
  | [] => []
  | segment :: rest => segment.outline :: Segment.outlines rest

end

/-- The outline of a query: the list of its segments. -/
def Query.outline (q : Query) : Outline := .list (Segment.outlines q.segments)

/-- A query on one line. -/
def Query.inspect (q : Query) : String := q.outline.oneLine

/-- A query with one element a line. -/
def Query.inspectIndented (q : Query) : String := q.outline.indented 0

/-- The settings of a compiler on one line. -/
def Compiler.inspect (c : Compiler) : String :=
  let postProcess := if c.postProcess.isSome then "Some(\"<fn>\")" else "None"
  "CompilerConfig \x7b placeholder: " ++ c.placeholder.describe ++ ", normalize_whitespace: " ++
    Value.writeBool c.normalizesBlanks ++ ", post_process: " ++ postProcess ++ " \x7d"

end SqlFragments
