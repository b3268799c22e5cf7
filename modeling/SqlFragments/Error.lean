/-!
# Why a fragment cannot be built

The causes for which the library refuses a value, an identifier, a template or a
configuration, and the one wording of each cause.

Main results:

- `Error.message`: the text of an error, the kind first and the cause after it.
-/

namespace SqlFragments

/-- Why a value cannot be bound as a single parameter. -/
inductive Unsupported where
  /-- A whole number above the 64-bit signed range. -/
  | integer (n : Nat)
  | array
  | object
  | other (reason : String)
deriving DecidableEq, Repr

/-- The wording of an unsupported value. -/
def Unsupported.message : Unsupported → String
  | .integer n => s!"integer {n} overflows i64"
  | .array => "arrays cannot be bound as a single parameter"
  | .object => "objects cannot be bound as a single parameter"
  | .other reason => reason

/-- Why a text is no identifier. -/
inductive IdentFault where
  | empty
  | nul
  /-- A quoted part without its closing quote. -/
  | unclosed (text : String)
  | emptyQuoted
  /-- A character that an unquoted part cannot have at its place. -/
  | character (c : Char) (text : String)
  | emptyPart (text : String)
  | trailingDot (text : String)
  /-- A character other than a dot after a quoted part. -/
  | glued (c : Char) (text : String)
  | other (reason : String)
deriving DecidableEq, Repr

/-- The wording of a fault in an identifier. -/
def IdentFault.message : IdentFault → String
  | .empty => "identifier cannot be empty"
  | .nul => "identifier cannot contain NUL"
  | .unclosed text => s!"unclosed quoted identifier in '{text}'"
  | .emptyQuoted => "empty quoted identifier"
  | .character c text => s!"invalid character '{c}' in '{text}'"
  | .emptyPart text => s!"empty part in '{text}'"
  | .trailingDot text => s!"trailing '.' in '{text}'"
  | .glued c text => s!"expected '.' between parts of '{text}', got '{c}'"
  | .other reason => reason

/-- Why a fragment, or the means to compile it, cannot be built. -/
inductive Error where
  | unsupportedValue (cause : Unsupported)
  | invalidIdent (cause : IdentFault)
  /-- Chunks and arguments of a template that do not interleave. -/
  | templateArity (chunks args : Nat)
  | config (reason : String)
deriving DecidableEq, Repr

namespace Error

/-- The text of an error.  A template has one argument fewer than it has chunks. -/
def message : Error → String
  | .unsupportedValue cause => s!"Unsupported value: {cause.message}"
  | .invalidIdent cause => s!"Invalid identifier: {cause.message}"
  | .templateArity chunks args =>
    s!"Template expects {chunks - 1} argument(s) for {chunks} chunk(s), got {args}"
  | .config reason => s!"Config error: {reason}"

/-- Whether a text was refused as an identifier. -/
def isInvalidIdent : Error → Bool
  | .invalidIdent _ => true
  | _ => false

/-- Whether a value was refused as a parameter. -/
def isUnsupportedValue : Error → Bool
  | .unsupportedValue _ => true
  | _ => false

end Error

end SqlFragments
