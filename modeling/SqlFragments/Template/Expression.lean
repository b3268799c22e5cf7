import SqlFragments.Template.Numeral
import SqlFragments.Template.Quotation
import SqlFragments.Text.Blank

/-!
# Expressions inside holes

An expression inside a hole, or given as an argument of a template, is the name of
an object, the name of a borrowed object, or a literal scalar.  Around its parts
there may be gaps, which hold blanks and comments.  A comment may be about the
expression after it, and then it can only stand in front of one.

Main results:

- `skipComment_shorter`, `skipGap_shorter`: what a gap holds takes at least one
  character.
- `readName_free`: a name is never a reserved word.
-/

namespace SqlFragments.Template

/-- What an argument of a template is computed from. -/
inductive Expression where
  | name (name : String)
  | borrowed (name : String)
  | literal (v : Value)
deriving DecidableEq, Repr

/-! ## Comments -/

/-- What a comment is about. -/
inductive Subject where
  /-- Nothing: the comment is an aside. -/
  | nothing
  /-- The expression after the comment. -/
  | next
  /-- What the comment is part of. -/
  | whole
deriving DecidableEq, Repr

/-- What a comment up to the end of its line is about, given the text after its two
slashes. -/
def lineSubject : List Char → Subject
  | '/' :: '/' :: _ => .nothing
  | '/' :: _ => .next
  | '!' :: _ => .whole
  | _ => .nothing

/-- What a comment with a closing sign is about, given the text after its opening sign. -/
def blockSubject : List Char → Subject
  | '*' :: '*' :: _ => .nothing
  | '*' :: '/' :: _ => .nothing
  | '*' :: _ => .next
  | '!' :: _ => .whole
  | _ => .nothing

/-- The text after the line that a comment is on. -/
def skipLine : List Char → List Char
  | [] => []
  | c :: rest => if c = '\n' then rest else skipLine rest

/-- The text after a comment, given the text after its opening sign and the number of
comments that are open inside it. -/
def skipBlock : Nat → List Char → Option (List Char)
  | _, [] => none
  | depth, '/' :: '*' :: rest => skipBlock (depth + 1) rest
  | 0, '*' :: '/' :: rest => some rest
  | depth + 1, '*' :: '/' :: rest => skipBlock depth rest
  | depth, _ :: rest => skipBlock depth rest

/-- The text after the comment that a text starts with, and what the comment is about. -/
def skipComment : List Char → Option (Subject × List Char)
  | '/' :: '/' :: rest => some (lineSubject rest, skipLine rest)
  | '/' :: '*' :: rest => (skipBlock 0 rest).map fun after => (blockSubject rest, after)
  | _ => none

/-- Skipping a line leaves no more text than there was. -/
theorem skipLine_le (text : List Char) : (skipLine text).length ≤ text.length := by
  induction text with
  | nil => exact Nat.le_refl _
  | cons c rest ih =>
    rw [skipLine]
    split
    · exact Nat.le_succ _
    · exact Nat.le_succ_of_le ih

/-- Skipping a block comment leaves no more text than there was. -/
theorem skipBlock_le {depth : Nat} {text after : List Char}
    (h : skipBlock depth text = some after) : after.length ≤ text.length := by
  fun_induction skipBlock depth text with
  | case1 => simp at h
  | case2 depth rest ih => exact Nat.le_succ_of_le (Nat.le_succ_of_le (ih h))
  | case3 rest =>
    cases h
    exact Nat.le_succ_of_le (Nat.le_succ_of_le (Nat.le_refl _))
  | case4 depth rest ih => exact Nat.le_succ_of_le (Nat.le_succ_of_le (ih h))
  | case5 depth c rest _ _ _ ih => exact Nat.le_succ_of_le (ih h)

/-- A comment takes at least one character. -/
theorem skipComment_shorter {text after : List Char} {subject : Subject}
    (h : skipComment text = some (subject, after)) : after.length < text.length := by
  unfold skipComment at h
  split at h
  · rename_i rest
    have := skipLine_le rest
    cases h
    simp only [List.length_cons]
    omega
  · obtain ⟨closed, hclosed, heq⟩ := Option.map_eq_some_iff.mp h
    have := skipBlock_le hclosed
    cases heq
    simp only [List.length_cons]
    omega
  · simp at h

/-! ## Gaps -/

/-- A blank between the parts of an expression.  The marks that set the direction of
writing are blanks too. -/
def isGap (c : Char) : Bool := Text.isBlank c || c == '\u200e' || c == '\u200f'

/-- Whether a text has a carriage return that no line feed follows. -/
def hasLoneReturn : List Char → Bool
  | [] => false
  | '\r' :: '\n' :: rest => hasLoneReturn rest
  | '\r' :: _ => true
  | _ :: rest => hasLoneReturn rest

/-- Whether a comment can be part of a gap.  Only a gap `before` an expression holds
comments about what comes next, and these hold no lone carriage return. -/
def Subject.fits (before : Bool) (comment : List Char) : Subject → Bool
  | .nothing => true
  | .next => before && !hasLoneReturn comment
  | .whole => false

/-- The text after the blank or the comment that it starts with. -/
def skipGap (before : Bool) (text : List Char) : Option (List Char) :=
  match skipComment text with
  | some (subject, after) =>
    if subject.fits before (text.take (text.length - after.length)) then some after else none
  | none =>
    match text with
    | [] => none
    | c :: rest => if isGap c then some rest else none

/-- A piece of a gap takes at least one character. -/
theorem skipGap_shorter {before : Bool} {text after : List Char}
    (h : skipGap before text = some after) : after.length < text.length := by
  unfold skipGap at h
  split at h
  · rename_i hcomment
    split at h
    · cases h
      exact skipComment_shorter hcomment
    · simp at h
  · split at h
    · simp at h
    · split at h
      · cases h
        simp
      · simp at h

/-- The text after the blanks and comments that it starts with. -/
def skipGaps (before : Bool) (text : List Char) : List Char :=
  match _found : skipGap before text with
  | none => text
  | some rest => skipGaps before rest
termination_by text.length
decreasing_by exact skipGap_shorter ‹_›

/-! ## Names -/

/-- The words that name no object. -/
def reservedWords : List String :=
  ["abstract", "as", "async", "await", "become", "box", "break", "const", "continue", "do",
    "dyn", "else", "enum", "extern", "false", "final", "fn", "for", "if", "impl", "in", "let",
    "loop", "macro", "match", "mod", "move", "mut", "override", "priv", "pub", "ref", "return",
    "static", "struct", "trait", "true", "try", "type", "typeof", "unsafe", "unsized", "use",
    "virtual", "where", "while", "yield"]

/-- The words that cannot be marked as names. -/
def unmarkedWords : List String := ["_", "crate", "self", "Self", "super"]

/-- Reads a name.  A mark in front makes a name of a reserved word, and it is part of the
name. -/
def readName : List Char → Option (String × List Char)
  | 'r' :: '#' :: text => do
    let (word, rest) ← Text.readWord text
    if String.ofList word ∈ unmarkedWords then none
    else some (String.ofList ('r' :: '#' :: word), rest)
  | text => do
    let (word, rest) ← Text.readWord text
    if String.ofList word ∈ reservedWords then none else some (String.ofList word, rest)

/-- A name is never a reserved word. -/
theorem readName_free {text rest : List Char} {name : String}
    (h : readName text = some (name, rest)) : name ∉ reservedWords := by
  unfold readName at h
  split at h
  · obtain ⟨⟨word, after⟩, _, hword⟩ := Option.bind_eq_some_iff.mp h
    dsimp only at hword
    split at hword
    · simp at hword
    · simp only [Option.some.injEq, Prod.mk.injEq] at hword
      have hmark : ∀ reserved ∈ reservedWords, reserved.toList[1]? ≠ some '#' := by decide
      intro hmem
      exact hmark name hmem (by simp [← hword.1])
  · obtain ⟨⟨word, after⟩, _, hword⟩ := Option.bind_eq_some_iff.mp h
    dsimp only at hword
    split at hword
    · simp at hword
    · rename_i hfree
      simp only [Option.some.injEq, Prod.mk.injEq] at hword
      rwa [← hword.1]

/-! ## Expressions -/

/-- The literal of a text that has been read, and what follows its suffix. -/
def textLiteral (found : Option (List Char × List Char)) : Option (Expression × List Char) :=
  found.map fun (s, rest) => (.literal (.text (String.ofList s)), Text.skipWord rest)

/-- Reads the truth value that a word is, or a name. -/
def readPlain (text : List Char) : Option (Expression × List Char) :=
  match Text.readWord text with
  | some (['t', 'r', 'u', 'e'], rest) => some (.literal (.bool true), rest)
  | some (['f', 'a', 'l', 's', 'e'], rest) => some (.literal (.bool false), rest)
  | _ => (readName text).map fun (name, rest) => (.name name, rest)

/-- Reads an expression that has no gap in front. -/
def readTerm : List Char → Option (Expression × List Char)
  | [] => none
  | '&' :: rest => (readName (skipGaps true rest)).map fun (name, rest) => (.borrowed name, rest)
  | '"' :: rest => textLiteral (readText rest)
  | '\'' :: rest => textLiteral ((readCharacter rest).map fun (c, rest) => ([c], rest))
  | c :: rest =>
    if c.isDigit then (readNumeral (c :: rest)).map fun (v, rest) => (.literal v, rest)
    else if c = 'r' then (textLiteral (readSigned rest)).or (readPlain (c :: rest))
    else readPlain (c :: rest)

/-- The expression that a text is, gaps at its ends aside. -/
def readExpression (text : List Char) : Option Expression :=
  match readTerm (skipGaps true (Text.dropMark text)) with
  | some (e, rest) => if (skipGaps false rest).isEmpty then some e else none
  | none => none

end SqlFragments.Template
