import SqlFragments.Number.Hexadecimal
import SqlFragments.Text.Line

/-!
# Texts between quotes in expressions

A text stands between double quotes, with escapes after backslashes, or verbatim
between quotes that number signs may enclose.  One character stands between single
quotes.  A line break in a text with escapes is one line feed, however it is
written, and a carriage return stands for itself nowhere outside a line break.

Main results:

- `readEscape_shorter`: an escape takes at least one character.
- `readVerbatim_plain`: a text without quotes and carriage returns is read as it stands.
-/

namespace SqlFragments.Template

open Number

/-! ## Escapes -/

/-- The most digits that an escape in braces may have. -/
def escapeDigits : Nat := 6

/-- Reads the digits of an escape up to its closing brace, after `count` digits that stand
for `n`.  There is at least one digit, and underscores may follow it. -/
def readBraced (count n : Nat) : List Char → Option (Nat × List Char)
  | [] => none
  | c :: rest =>
    if c = '}' ∧ 0 < count then some (n, rest)
    else if c = '_' ∧ 0 < count then readBraced count n rest
    else if count < escapeDigits then
      (hexValue c).bind fun d => readBraced (count + 1) (16 * n + d) rest
    else none

/-- The character of a code point that is one. -/
def charOf (n : Nat) : Option Char :=
  if n.isValidChar then some (Char.ofNat n) else none

/-- Reads an escape after its backslash. -/
def readEscape : List Char → Option (Char × List Char)
  | 'n' :: rest => some ('\n', rest)
  | 'r' :: rest => some ('\r', rest)
  | 't' :: rest => some ('\t', rest)
  | '0' :: rest => some ('\x00', rest)
  | '\\' :: rest => some ('\\', rest)
  | '"' :: rest => some ('"', rest)
  | '\'' :: rest => some ('\'', rest)
  | 'x' :: a :: b :: rest => do
    let n ← hexNumber [a, b]
    if n < 0x80 then some (Char.ofNat n, rest) else none
  | 'u' :: '{' :: rest => do
    let (n, after) ← readBraced 0 0 rest
    let c ← charOf n
    return (c, after)
  | _ => none

theorem readBraced_shorter {count n value : Nat} {text after : List Char}
    (h : readBraced count n text = some (value, after)) : after.length < text.length := by
  induction text generalizing count n with
  | nil => simp [readBraced] at h
  | cons c rest ih =>
    unfold readBraced at h
    split at h
    · cases h
      simp
    · split at h
      · exact Nat.lt_succ_of_lt (ih h)
      · split at h
        · obtain ⟨d, _, hrest⟩ := Option.bind_eq_some_iff.mp h
          exact Nat.lt_succ_of_lt (ih hrest)
        · simp at h

/-- An escape takes at least one character. -/
theorem readEscape_shorter {text after : List Char} {c : Char}
    (h : readEscape text = some (c, after)) : after.length < text.length := by
  unfold readEscape at h
  split at h
  case h_8 =>
    obtain ⟨n, _, hn⟩ := Option.bind_eq_some_iff.mp h
    split at hn
    · cases hn
      simp only [List.length_cons]
      omega
    · simp at hn
  case h_9 =>
    simp only [Option.bind_eq_bind, Option.bind_eq_some_iff, Option.pure_def,
      Option.some.injEq, Prod.exists, Prod.mk.injEq] at h
    obtain ⟨_, _, hbraced, _, _, _, rfl⟩ := h
    have := readBraced_shorter hbraced
    simp only [List.length_cons]
    omega
  case h_10 => simp at h
  all_goals
    cases h
    simp

/-! ## Texts with escapes -/

/-- Puts a character in front of the text that has been read. -/
def consRead (c : Char) (found : Option (List Char × List Char)) :
    Option (List Char × List Char) :=
  found.map fun (text, rest) => (c :: text, rest)

/-- Reads a text with escapes after its opening quote, up to its closing quote.  After a
backslash at the end of a line the text goes on with the next character that is neither a
space nor in a line break. -/
def readText (text : List Char) : Option (List Char × List Char) :=
  match text with
  | [] => none
  | '"' :: rest => some ([], rest)
  | '\r' :: '\n' :: rest => consRead '\n' (readText rest)
  | '\r' :: _ => none
  | '\\' :: '\n' :: rest => readText (Text.skipBreaks rest)
  | '\\' :: '\r' :: '\n' :: rest => readText (Text.skipBreaks rest)
  | '\\' :: rest =>
    match _found : readEscape rest with
    | none => none
    | some (c, after) => consRead c (readText after)
  | c :: rest => consRead c (readText rest)
termination_by text.length
decreasing_by
  · simp only [List.length_cons]
    omega
  · have := Text.skipBreaks_le rest
    simp only [List.length_cons]
    omega
  · have := Text.skipBreaks_le rest
    simp only [List.length_cons]
    omega
  · have := readEscape_shorter ‹_›
    simp only [List.length_cons]
    omega
  · simp

/-! ## Verbatim texts -/

/-- Reads a verbatim text up to the first quote with as many number signs after it as
stand before the opening quote. -/
def readVerbatim (signs : Nat) : List Char → Option (List Char × List Char)
  | [] => none
  | c :: rest =>
    if c = '"' ∧ (List.replicate signs '#').isPrefixOf rest then some ([], rest.drop signs)
    else if c = '\r' ∧ rest.head? ≠ some '\n' then none
    else consRead c (readVerbatim signs rest)

/-- The most number signs that may enclose a verbatim text. -/
def signLimit : Nat := 255

/-- Reads a verbatim text from its number signs on. -/
def readSigned (text : List Char) : Option (List Char × List Char) :=
  let signs := (text.takeWhile (· == '#')).length
  match text.drop signs with
  | '"' :: rest => if signs ≤ signLimit then readVerbatim signs rest else none
  | _ => none

/-- A text without quotes and carriage returns is read as it stands. -/
theorem readVerbatim_plain {signs : Nat} {text : List Char}
    (h : ∀ c ∈ text, c ≠ '"' ∧ c ≠ '\r') (rest : List Char) :
    readVerbatim signs (text ++ '"' :: (List.replicate signs '#' ++ rest)) = some (text, rest) := by
  induction text with
  | nil => simp [readVerbatim]
  | cons c text ih =>
    have hc := h c (by simp)
    have hrest := ih fun d hd => h d (by simp [hd])
    rw [List.cons_append, readVerbatim, if_neg (by simp [hc.1]), if_neg (by simp [hc.2]), hrest]
    rfl

/-! ## Characters -/

/-- Reads the one character after an opening single quote, and its closing quote. -/
def readCharacter : List Char → Option (Char × List Char)
  | '\\' :: rest =>
    match readEscape rest with
    | some (c, '\'' :: rest) => some (c, rest)
    | _ => none
  | c :: '\'' :: rest => some (c, rest)
  | _ => none

end SqlFragments.Template
