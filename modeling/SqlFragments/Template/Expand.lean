import SqlFragments.Template.Part
import SqlFragments.Builder

/-!
# Expanding a template

Expansion turns a template and its arguments into one append for each piece.  The
faults are looked for in a fixed order: the syntax of the template, then the number
of holes that take arguments, then the expressions inside holes from left to right.
Which texts are expressions is left to the caller.
-/

namespace SqlFragments.Template

/-- Why a template does not expand. -/
inductive Fault where
  | syntactic (fault : Part.Fault)
  /-- The number of holes that take arguments, and the number of arguments. -/
  | holeCount (holes args : Nat)
  | invalidExpression (expression : List Char)
  | missingArgument
deriving DecidableEq, Repr

/-- The wording of a fault.  What the reader of expressions says about an unreadable one
is not part of it. -/
def Fault.message : Fault → String
  | .syntactic fault => fault.message
  | .holeCount holes args =>
    s!"template has {holes} `\x7b\x7d` hole(s) but {args} argument(s) were given"
  | .invalidExpression expression =>
    s!"invalid expression `{String.ofList expression}` in template"
  | .missingArgument => "missing positional argument"

/-- One append to a builder. -/
inductive Append (ε : Type) where
  | code (text : List Char)
  | arg (expression : ε)
deriving DecidableEq, Repr

/-- Whether a piece takes an argument. -/
def Part.isPositional : Part → Bool
  | .positional => true
  | _ => false

/-- One append for each piece: the holes that take arguments take them in order. -/
def assign {ε : Type} (read : List Char → Option ε) :
    List Part → List ε → Except Fault (List (Append ε))
  | [], _ => .ok []
  | .code text :: parts, args => (assign read parts args).map (.code text :: ·)
  | .inline expression :: parts, args =>
    match read expression with
    | some e => (assign read parts args).map (.arg e :: ·)
    | none => .error (.invalidExpression expression)
  | .positional :: parts, arg :: args => (assign read parts args).map (.arg arg :: ·)
  | .positional :: _, [] => .error .missingArgument

/-- The appends of a template with its arguments. -/
def expand {ε : Type} (read : List Char → Option ε) (template : String) (args : List ε) :
    Except Fault (List (Append ε)) :=
  match parse template with
  | .error fault => .error (.syntactic fault)
  | .ok parts =>
    let holes := parts.countP Part.isPositional
    if holes = args.length then assign read parts args
    else .error (.holeCount holes args.length)

/-- The segment that an append adds. -/
def Append.segment : Append Argument → Segment
  | .code text => .literal (String.ofList text)
  | .arg argument => argument.segment

/-- The query that appends build; without appends it is empty. -/
def build (appends : List (Append Argument)) : Query := ⟨appends.map Append.segment⟩

end SqlFragments.Template
