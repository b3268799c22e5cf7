import SqlFragments.Json.Numeral
import SqlFragments.Number.Hexadecimal

/-!
# Tokens of JSON

A text is first divided into tokens.  A string token holds the code points that
its characters and escapes stand for; an escape may stand for one half of a pair
of surrogates, so whether they make a text is decided when the text is asked for.

Main results:

- `pairSurrogates_text`: code points that come from characters make their text.
- `readToken_shorter`: a token takes at least one character.
-/

namespace SqlFragments.Json

open Number

/-! ## Strings -/

/-- The character that a short escape stands for. -/
def shortEscape : Char → Option Char
  | '"' => some '"'
  | '\\' => some '\\'
  | '/' => some '/'
  | 'b' => some '\x08'
  | 'f' => some '\x0c'
  | 'n' => some '\n'
  | 'r' => some '\r'
  | 't' => some '\t'
  | _ => none

/-- Reads a string after its opening quote: its code points, and the text after the
closing quote.  Control characters must be escaped. -/
def readString : List Char → Option (List Nat × List Char)
  | [] => none
  | '"' :: rest => some ([], rest)
  | '\\' :: 'u' :: a :: b :: c :: d :: rest => do
    let unit ← hexNumber [a, b, c, d]
    let (units, after) ← readString rest
    return (unit :: units, after)
  | '\\' :: e :: rest => do
    let c ← shortEscape e
    let (units, after) ← readString rest
    return (c.toNat :: units, after)
  | c :: rest =>
    if c.toNat < 0x20 ∨ c = '\\' then none
    else (readString rest).map fun (units, after) => (c.toNat :: units, after)

/-- Whether a code point is the leading half of a surrogate pair. -/
def isLeading (unit : Nat) : Bool := 0xD800 ≤ unit && unit < 0xDC00

/-- Whether a code point is the trailing half of a surrogate pair. -/
def isTrailing (unit : Nat) : Bool := 0xDC00 ≤ unit && unit < 0xE000

/-- The text of code points with surrogate pairs joined; nothing if a half is alone. -/
def pairSurrogates : List Nat → Option (List Char)
  | [] => some []
  | unit :: rest =>
    if isLeading unit then
      match rest with
      | next :: rest =>
        if isTrailing next then
          (pairSurrogates rest).map
            (Char.ofNat (0x10000 + (unit - 0xD800) * 0x400 + (next - 0xDC00)) :: ·)
        else none
      | [] => none
    else if isTrailing unit then none
    else (pairSurrogates rest).map (Char.ofNat unit :: ·)

/-- Code points that come from characters make their text. -/
theorem pairSurrogates_text (text : List Char) :
    pairSurrogates (text.map Char.toNat) = some text := by
  induction text with
  | nil => rfl
  | cons c text ih =>
    have hvalid : c.toNat < 0xD800 ∨ 0xDFFF < c.toNat ∧ c.toNat < 0x110000 := c.valid
    have hlead : isLeading c.toNat = false := by
      simp only [isLeading, Bool.and_eq_false_iff, decide_eq_false_iff_not]
      omega
    have htrail : isTrailing c.toNat = false := by
      simp only [isTrailing, Bool.and_eq_false_iff, decide_eq_false_iff_not]
      omega
    rw [List.map_cons, pairSurrogates.eq_def]
    simp [hlead, htrail, ih]

/-- A string takes at least its closing quote, so its reader can recurse on what follows. -/
theorem readString_shorter {text after : List Char} {units : List Nat}
    (h : readString text = some (units, after)) : after.length < text.length := by
  fun_induction readString text generalizing units with
  | case1 => simp at h
  | case2 rest =>
    obtain ⟨_, rfl⟩ := Prod.mk.inj (Option.some.inj h)
    simp
  | case3 a b c d rest ih =>
    simp only [Option.bind_eq_bind, Option.bind_eq_some_iff, Option.pure_def,
      Option.some.injEq, Prod.exists, Prod.mk.injEq] at h
    obtain ⟨_, _, _, _, hrest, _, rfl⟩ := h
    have := ih hrest
    simp only [List.length_cons]
    omega
  | case4 e rest _ ih =>
    simp only [Option.bind_eq_bind, Option.bind_eq_some_iff, Option.pure_def,
      Option.some.injEq, Prod.exists, Prod.mk.injEq] at h
    obtain ⟨_, _, _, _, hrest, _, rfl⟩ := h
    have := ih hrest
    simp only [List.length_cons]
    omega
  | case5 => simp at h
  | case6 c rest _ _ _ _ ih =>
    obtain ⟨⟨_, _⟩, hrest, heq⟩ := Option.map_eq_some_iff.mp h
    obtain ⟨_, rfl⟩ := Prod.mk.inj heq
    have := ih hrest
    simp only [List.length_cons]
    omega

/-! ## Tokens -/

/-- A token. -/
inductive Token where
  | openBracket
  | closeBracket
  | openBrace
  | closeBrace
  | comma
  | colon
  | null
  | bool (b : Bool)
  | string (units : List Nat)
  | number (n : Numeral)
deriving DecidableEq, Repr

/-- The blanks that may stand between tokens. -/
def isSpace (c : Char) : Bool := c == ' ' || c == '\n' || c == '\r' || c == '\t'

/-- Reads the token that a text starts with. -/
def readToken : List Char → Option (Token × List Char)
  | '[' :: rest => some (.openBracket, rest)
  | ']' :: rest => some (.closeBracket, rest)
  | '{' :: rest => some (.openBrace, rest)
  | '}' :: rest => some (.closeBrace, rest)
  | ',' :: rest => some (.comma, rest)
  | ':' :: rest => some (.colon, rest)
  | 'n' :: 'u' :: 'l' :: 'l' :: rest => some (.null, rest)
  | 't' :: 'r' :: 'u' :: 'e' :: rest => some (.bool true, rest)
  | 'f' :: 'a' :: 'l' :: 's' :: 'e' :: rest => some (.bool false, rest)
  | '"' :: rest => (readString rest).map fun (units, after) => (.string units, after)
  | text => (readNumeral text).map fun (n, after) => (.number n, after)

/-- A token takes at least one character. -/
theorem readToken_shorter {text after : List Char} {t : Token}
    (h : readToken text = some (t, after)) : after.length < text.length := by
  unfold readToken at h
  split at h
  case h_10 rest =>
    obtain ⟨⟨_, _⟩, hstring, heq⟩ := Option.map_eq_some_iff.mp h
    obtain ⟨_, rfl⟩ := Prod.mk.inj heq
    exact Nat.lt_succ_of_lt (readString_shorter hstring)
  case h_11 =>
    obtain ⟨⟨_, _⟩, hnumber, heq⟩ := Option.map_eq_some_iff.mp h
    obtain ⟨_, rfl⟩ := Prod.mk.inj heq
    exact readNumeral_shorter hnumber
  all_goals
    obtain ⟨_, rfl⟩ := Prod.mk.inj (Option.some.inj h)
    simp only [List.length_cons]
    omega

/-- The tokens of a text. -/
def tokenize (text : List Char) : Option (List Token) :=
  match text with
  | [] => some []
  | c :: rest =>
    if isSpace c then tokenize rest
    else
      match _found : readToken (c :: rest) with
      | none => none
      | some (t, after) => (tokenize after).map (t :: ·)
termination_by text.length
decreasing_by
  · simp
  · exact readToken_shorter ‹_›

end SqlFragments.Json
