import SqlFragments.Compiler
import SqlFragments.Number.Hexadecimal
import SqlFragments.Text.Line
import SqlFragments.Toml.Document

/-!
# Reading TOML

The reader takes key and value lines, headers, the four kinds of strings, truth
values, numbers, dates and times, arrays, tables between braces and comments.  Every
reader gives what it has read and the rest of the text.
-/

namespace SqlFragments.Toml

open Number

/-- A reader: what has been read, and the rest of the text. -/
abbrev Reader (α : Type) := List Char → Option (α × List Char)

/-! ## Spaces and comments -/

/-- The number of keys in a dotted key, and of brackets and braces around a value, that
a document may have. -/
def depthLimit : Nat := 80

/-- A control character that may stand nowhere; the tab is allowed. -/
def isControl (c : Char) : Bool := c.toNat < 0x20 && c != '\t' || c == '\x7f'

/-- The text after the spaces that it starts with. -/
def skipSpaces (text : List Char) : List Char := text.dropWhile Text.isSpace

/-- The text of a comment after its sign, up to the end of the line. -/
def skipComment : List Char → Option (List Char)
  | [] => some []
  | '\n' :: rest => some ('\n' :: rest)
  | '\r' :: '\n' :: rest => some ('\r' :: '\n' :: rest)
  | c :: rest => if isControl c then none else skipComment rest

/-- Reads the end of a line: spaces, a comment, and a line break or the end of the text. -/
def endLine (text : List Char) : Option (List Char) := do
  let text := skipSpaces text
  let text ← match text with
    | '#' :: rest => skipComment rest
    | text => some text
  match text with
  | [] => some []
  | '\n' :: rest => some rest
  | '\r' :: '\n' :: rest => some rest
  | _ => none

/-- The text after spaces, line breaks and comments, at most `bound` of them. -/
def skipLines : Nat → List Char → Option (List Char)
  | 0, text => some text
  | bound + 1, text =>
    match text with
    | '\n' :: rest => skipLines bound rest
    | '\r' :: '\n' :: rest => skipLines bound rest
    | '#' :: rest => (skipComment rest).bind (skipLines bound)
    | c :: rest => if Text.isSpace c then skipLines bound rest else some (c :: rest)
    | [] => some []

/-- The text after all spaces, line breaks and comments that it starts with. -/
def skipAll (text : List Char) : Option (List Char) := skipLines text.length text

/-! ## Strings -/

/-- Reads the character of an escape with `count` hexadecimal digits left. -/
def readHex (n : Nat) : Nat → Reader Char
  | 0, text => if n.isValidChar then some (Char.ofNat n, text) else none
  | _ + 1, [] => none
  | count + 1, c :: rest => (hexValue c).bind fun d => readHex (16 * n + d) count rest

/-- Reads an escape after its backslash. -/
def readEscape : Reader Char
  | 'b' :: rest => some ('\x08', rest)
  | 't' :: rest => some ('\t', rest)
  | 'n' :: rest => some ('\n', rest)
  | 'f' :: rest => some ('\x0c', rest)
  | 'r' :: rest => some ('\r', rest)
  | 'e' :: rest => some ('\x1b', rest)
  | '"' :: rest => some ('"', rest)
  | '\\' :: rest => some ('\\', rest)
  | 'x' :: rest => readHex 0 2 rest
  | 'u' :: rest => readHex 0 4 rest
  | 'U' :: rest => readHex 0 8 rest
  | _ => none

/-- Puts a character in front of what a reader reads. -/
def cons (c : Char) (found : Option (List Char × List Char)) : Option (List Char × List Char) :=
  found.map fun (text, rest) => (c :: text, rest)

/-- Reads a basic string after its quote, at most `bound` characters. -/
def readBasic : Nat → Reader (List Char)
  | 0, _ => none
  | _ + 1, [] => none
  | _ + 1, '"' :: rest => some ([], rest)
  | bound + 1, '\\' :: rest =>
    (readEscape rest).bind fun (c, rest) => cons c (readBasic bound rest)
  | bound + 1, c :: rest => if isControl c then none else cons c (readBasic bound rest)

/-- Reads a literal string after its quote. -/
def readLiteral : Reader (List Char)
  | [] => none
  | '\'' :: rest => some ([], rest)
  | c :: rest => if isControl c then none else cons c (readLiteral rest)

/-- The text after a backslash at the end of a line, from the next character that is
neither a space nor in a line break. -/
def continueLine (text : List Char) : Option (List Char) :=
  match skipSpaces text with
  | '\n' :: rest => some (Text.skipBreaks rest)
  | '\r' :: '\n' :: rest => some (Text.skipBreaks rest)
  | _ => none

/-- Reads a string of several lines after its quotes, at most `bound` characters; up to
two quotes may stand before the three that close it. -/
def readLines (quote : Char) (escapes : Bool) : Nat → Reader (List Char)
  | 0, _ => none
  | bound + 1, text =>
    match text with
    | [] => none
    | '\n' :: rest => cons '\n' (readLines quote escapes bound rest)
    | '\r' :: '\n' :: rest => cons '\n' (readLines quote escapes bound rest)
    | c :: rest =>
      if c = quote then
        let run := (text.takeWhile (· == quote)).take 5
        if 3 ≤ run.length then some (run.drop 3, text.drop run.length)
        else cons c (readLines quote escapes bound rest)
      else if c = '\\' && escapes then
        match continueLine rest with
        | some rest => readLines quote escapes bound rest
        | none => (readEscape rest).bind fun (c, rest) =>
          cons c (readLines quote escapes bound rest)
      else if isControl c then none
      else cons c (readLines quote escapes bound rest)

/-- The text after the line break that a string of several lines may start with. -/
def dropFirstBreak : List Char → List Char
  | '\n' :: rest => rest
  | '\r' :: '\n' :: rest => rest
  | text => text

/-- Reads a string of one line. -/
def readLineString : Reader String
  | '"' :: rest => (readBasic (rest.length + 1) rest).map fun (s, rest) => (String.ofList s, rest)
  | '\'' :: rest => (readLiteral rest).map fun (s, rest) => (String.ofList s, rest)
  | _ => none

/-- Reads a string of any kind. -/
def readString : Reader String
  | '"' :: '"' :: '"' :: rest =>
    let text := dropFirstBreak rest
    (readLines '"' true (text.length + 1) text).map fun (s, rest) => (String.ofList s, rest)
  | '\'' :: '\'' :: '\'' :: rest =>
    let text := dropFirstBreak rest
    (readLines '\'' false (text.length + 1) text).map fun (s, rest) => (String.ofList s, rest)
  | text => readLineString text

/-! ## Keys -/

/-- A character of a key without quotes. -/
def isBare (c : Char) : Bool := c.isAlphanum || c == '_' || c == '-'

/-- Reads one key. -/
def readSimpleKey (text : List Char) : Option (String × List Char) :=
  let bare := text.takeWhile isBare
  if bare.isEmpty then readLineString text
  else some (String.ofList bare, text.dropWhile isBare)

/-- Reads keys with dots between them, at most `bound` of them. -/
def readKeys : Nat → Reader (List String)
  | 0, _ => none
  | bound + 1, text => do
    let (key, rest) ← readSimpleKey (skipSpaces text)
    match skipSpaces rest with
    | '.' :: rest =>
      let (keys, rest) ← readKeys bound rest
      return (key :: keys, rest)
    | rest => return ([key], rest)

/-- Reads a dotted key, with spaces around it. -/
def readKey (text : List Char) : Option (List String × List Char) :=
  readKeys depthLimit text

/-! ## Words -/

/-- A character of a truth value or a number. -/
def isWord (c : Char) : Bool := c.isAlphanum || c == '_' || c == '+' || c == '-' || c == '.'

/-- The truth value or the number that a word is. -/
def ofWord : List Char → Option Toml
  | ['t', 'r', 'u', 'e'] => some (.bool true)
  | ['f', 'a', 'l', 's', 'e'] => some (.bool false)
  | word => (Numeral.ofWord word).map .number

/-- Reads a moment, a truth value or a number. -/
def readPlain (text : List Char) : Option (Toml × List Char) :=
  match readMoment text with
  | some (m, rest) => some (.moment m, rest)
  | none => (ofWord (text.takeWhile isWord)).map fun v => (v, text.dropWhile isWord)

/-! ## Values -/

mutual

/-- Reads a value with at most `bound` values and separators in it, and with at most
`depth` brackets and braces around the innermost. -/
def readValue : (bound depth : Nat) → Reader Toml
  | 0, _, _ => none
  | bound + 1, depth, text =>
    match text, depth with
    | '"' :: _, _ => (readString text).map fun (s, rest) => (.string s, rest)
    | '\'' :: _, _ => (readString text).map fun (s, rest) => (.string s, rest)
    | '[' :: _, 0 => none
    | '[' :: rest, depth + 1 => do
      let (elements, rest) ← readElements bound depth rest
      return (.array elements, rest)
    | '{' :: _, 0 => none
    | '{' :: rest, depth + 1 => do
      let (entries, rest) ← readEntries bound depth [] rest
      return (.table .inline entries, rest)
    | text, _ => readPlain text

/-- Reads the elements of an array up to its closing bracket. -/
def readElements : (bound depth : Nat) → Reader (List Toml)
  | 0, _, _ => none
  | bound + 1, depth, text => do
    match ← skipAll text with
    | ']' :: rest => return ([], rest)
    | text =>
      let (v, rest) ← readValue bound depth text
      match ← skipAll rest with
      | ',' :: rest =>
        let (elements, rest) ← readElements bound depth rest
        return (v :: elements, rest)
      | ']' :: rest => return ([v], rest)
      | _ => none

/-- Reads the entries of a table up to its closing brace, after the entries before.  Lines
may end anywhere between braces but inside a key. -/
def readEntries : (bound depth : Nat) → Entries → Reader Entries
  | 0, _, _, _ => none
  | bound + 1, depth, entries, text => do
    match ← skipAll text with
    | '}' :: rest => return (entries, rest)
    | text =>
      let (path, rest) ← readKey text
      match ← skipAll rest with
      | '=' :: rest =>
        let (v, rest) ← readValue bound depth (← skipAll rest)
        let entries ← addEntry path v entries
        match ← skipAll rest with
        | ',' :: rest => readEntries bound depth entries rest
        | '}' :: rest => return (entries, rest)
        | _ => none
      | _ => none

end

/-! ## Documents -/

/-- Reads a statement without the end of its line. -/
def readStatement (text : List Char) : Option (Statement × List Char) :=
  match text with
  | '[' :: '[' :: rest => do
    let (path, rest) ← readKey rest
    match rest with
    | ']' :: ']' :: rest => return (.element path, rest)
    | _ => none
  | '[' :: rest => do
    let (path, rest) ← readKey rest
    match rest with
    | ']' :: rest => return (.table path, rest)
    | _ => none
  | text => do
    let (path, rest) ← readKey text
    match rest with
    | '=' :: rest =>
      let (v, rest) ← readValue (rest.length + 1) depthLimit (skipSpaces rest)
      return (.entry path v, rest)
    | _ => none

/-- Reads statements, each on lines of its own, at most `bound` of them. -/
def readStatements : Nat → List Char → Option (List Statement)
  | 0, _ => none
  | bound + 1, text => do
    match ← skipAll text with
    | [] => return []
    | text =>
      let (statement, rest) ← readStatement text
      let rest ← endLine rest
      return statement :: (← readStatements bound rest)

/-- The entries of the document of a text. -/
def parse (text : String) : Option Entries :=
  (readStatements (text.length + 1) (Text.dropMark text.toList)).bind ofStatements

end SqlFragments.Toml

namespace SqlFragments

/-! ## Settings -/

/-- Whether a value is an array or a table with nothing in it. -/
def Toml.isVacant : Toml → Bool
  | .array elements => elements.isEmpty
  | .table _ entries => entries.isEmpty
  | .tables opened => opened.isEmpty
  | _ => false

/-- The style that a value names: a string, or a table with the name alone and nothing
under it. -/
def Placeholder.ofToml : Toml → Option Placeholder
  | .string name => ofName name
  | .table _ [(name, v)] => if v.isVacant then ofName name else none
  | _ => none

/-- The truth value of a value that is one. -/
def Toml.bool? : Toml → Option Bool
  | .bool b => some b
  | _ => none

/-- The compiler of a document: what is absent keeps its default, and other keys are
passed over. -/
def Compiler.ofToml (entries : Toml.Entries) : Option Compiler := do
  let placeholder ← (Toml.find? "placeholder" entries).elim (some .questionMark)
    Placeholder.ofToml
  let normalizesBlanks ← (Toml.find? "normalize_whitespace" entries).elim (some false) Toml.bool?
  return ⟨placeholder, normalizesBlanks, none⟩

/-- The compiler of the settings in a text. -/
def Compiler.ofTomlText (text : String) : Except Error Compiler :=
  match Toml.parse text with
  | none => .error (.config "the text is no TOML document")
  | some entries =>
    (ofToml entries).elim (.error (.config "a setting has a value of the wrong kind")) .ok

end SqlFragments
