import SqlFragments.Json.Token

/-!
# Documents of JSON

A document is built from tokens by a machine that keeps the arrays and objects
still open on a stack.  The grammar alone is checked here; a value is readable when
moreover its strings are texts, its numbers are finite and it is not nested too
deeply.

Main results:

- `run_scalar`: a scalar token where a value is due is that value.
-/

namespace SqlFragments

/-- A document, with strings as code points and numbers as numerals. -/
inductive Json where
  | null
  | bool (b : Bool)
  | string (units : List Nat)
  | number (n : Json.Numeral)
  | array (elements : List Json)
  | object (members : List (List Nat × Json))
deriving Repr

namespace Json

/-! ## The machine -/

/-- An array or an object that is still open; what is done of it is kept in reverse. -/
inductive Frame where
  | array (done : List Json)
  | object (done : List (List Nat × Json))
  /-- An object and the key of the member whose value is due. -/
  | member (done : List (List Nat × Json)) (key : List Nat)

/-- What the next token has to be. -/
inductive Due where
  | value
  /-- The first element of an array, or its end. -/
  | elementOrEnd
  | key
  /-- The first key of an object, or its end. -/
  | keyOrEnd
  | colon
  /-- What follows a complete value. -/
  | rest (v : Json)

/-- The value of a scalar token. -/
def Token.scalar : Token → Option Json
  | .null => some .null
  | .bool b => some (.bool b)
  | .string units => some (.string units)
  | .number n => some (.number n)
  | _ => none

/-- What is due and what is open after the first token of a value. -/
def startValue (t : Token) (stack : List Frame) : Option (Due × List Frame) :=
  match t with
  | .openBracket => some (.elementOrEnd, .array [] :: stack)
  | .openBrace => some (.keyOrEnd, .object [] :: stack)
  | t => t.scalar.map fun v => (.rest v, stack)

/-- What is due and what is open after a token. -/
def step (t : Token) : Due → List Frame → Option (Due × List Frame)
  | .value, stack => startValue t stack
  | .elementOrEnd, .array done :: stack =>
    if t = .closeBracket then some (.rest (.array done.reverse), stack)
    else startValue t (.array done :: stack)
  | .keyOrEnd, .object done :: stack =>
    match t with
    | .closeBrace => some (.rest (.object done.reverse), stack)
    | .string units => some (.colon, .member done units :: stack)
    | _ => none
  | .key, .object done :: stack =>
    match t with
    | .string units => some (.colon, .member done units :: stack)
    | _ => none
  | .colon, stack => if t = .colon then some (.value, stack) else none
  | .rest v, .array done :: stack =>
    match t with
    | .comma => some (.value, .array (v :: done) :: stack)
    | .closeBracket => some (.rest (.array (v :: done).reverse), stack)
    | _ => none
  | .rest v, .member done key :: stack =>
    match t with
    | .comma => some (.key, .object ((key, v) :: done) :: stack)
    | .closeBrace => some (.rest (.object ((key, v) :: done).reverse), stack)
    | _ => none
  | _, _ => none

/-- The value that tokens complete, from what is due and what is open. -/
def run : List Token → Due → List Frame → Option Json
  | [], .rest v, [] => some v
  | [], _, _ => none
  | t :: tokens, due, stack =>
    match step t due stack with
    | some (due, stack) => run tokens due stack
    | none => none

/-- The document of a text. -/
def parse (text : String) : Option Json :=
  (tokenize text.toList).bind fun tokens => run tokens .value []

/-- A scalar token where a value is due is that value. -/
theorem run_scalar {t : Token} {v : Json} (h : t.scalar = some v) (tokens : List Token)
    (stack : List Frame) : run (t :: tokens) .value stack = run tokens (.rest v) stack := by
  cases t <;> simp_all [run, step, startValue, Token.scalar]

/-! ## Readable values -/

/-- The text of code points, if they make one. -/
def text? (units : List Nat) : Option String := (pairSurrogates units).map String.ofList

mutual

/-- Whether every string is a text and every number is finite, at any depth. -/
def isSound : Json → Bool
  | .null => true
  | .bool _ => true
  | .string units => (text? units).isSome
  | .number n => n.read.isSome
  | .array elements => areSound elements
  | .object members => areSoundMembers members

/-- Whether all elements of an array are sound. -/
def areSound : List Json → Bool
  | [] => true
  | v :: rest => v.isSound && areSound rest

/-- Whether all members of an object are sound. -/
def areSoundMembers : List (List Nat × Json) → Bool
  | [] => true
  | (key, v) :: rest => (text? key).isSome && v.isSound && areSoundMembers rest

end

mutual

/-- The number of arrays and objects around the innermost value. -/
def depth : Json → Nat
  | .array elements => depthOf elements + 1
  | .object members => depthOfMembers members + 1
  | _ => 0

/-- The greatest depth of the elements of an array. -/
def depthOf : List Json → Nat
  | [] => 0
  | v :: rest => max v.depth (depthOf rest)

/-- The greatest depth of the members of an object. -/
def depthOfMembers : List (List Nat × Json) → Nat
  | [] => 0
  | (_, v) :: rest => max v.depth (depthOfMembers rest)

end

/-- The greatest depth that a readable value can have. -/
def maxDepth : Nat := 127

/-- Whether a value can be read: it is sound and not nested too deeply. -/
def isReadable (v : Json) : Bool := v.isSound && decide (v.depth ≤ maxDepth)

/-- The document of a text, if it can be read. -/
def parseReadable (text : String) : Option Json :=
  (parse text).filter isReadable

end Json

end SqlFragments
