import Mathlib.Data.List.Basic
import SqlFragments.Json.Binding
import SqlFragments.Json.Write

/-!
# Spellings of scalars are read back

A numeral, a string and a word are written so that reading gives them back and stops
at the character after them.  What follows a numeral must not continue it, and what
follows a scalar in a list is a comma or a bracket, which continues none.

Main results:

- `Numeral.readNumeral_text`: the text of a numeral is read as that numeral.
- `readString_escape`: the escaped characters of a string are read as its characters.
- `readToken_numeral` and `readToken_string`: the tokens that these texts begin with.
-/

namespace SqlFragments.Json

open Number

/-! ## Numerals -/

/-- Text that does not continue a row of digits. -/
def EndsRow (rest : List Char) : Prop := ∀ c ∈ rest.head?, digitValue c = none

/-- Text that does not continue a numeral. -/
def EndsNumeral (rest : List Char) : Prop :=
  ∀ c ∈ rest.head?, digitValue c = none ∧ c ≠ '.' ∧ c ≠ 'e' ∧ c ≠ 'E'

/-- The end of a numeral ends every row of digits in it. -/
theorem EndsNumeral.endsRow {rest : List Char} (h : EndsNumeral rest) : EndsRow rest :=
  fun c hc => (h c hc).1

/-- A character that is no digit ends a row of digits. -/
theorem endsRow_cons {c : Char} (h : digitValue c = none) (rest : List Char) :
    EndsRow (c :: rest) := by
  intro d hd
  rwa [← Option.some.inj hd]

/-- A row of at least one digit is read back. -/
theorem readRow_writeDigits {row : List ℕ} (hne : row ≠ []) (hrow : ∀ d ∈ row, d < 10)
    {rest : List Char} (hrest : EndsRow rest) :
    readRow (writeDigits row ++ rest) = some (row, rest) := by
  rw [readRow, readDigits_writeDigits hrow hrest, if_neg (by simpa using hne)]

/-- A digit is not written as a character that is not its own. -/
theorem digitChar_ne {d : ℕ} (hd : d < 10) {c : Char} (hc : digitValue c ≠ some d) :
    digitChar d ≠ c := by
  rintro rfl
  exact hc (digitValue_digitChar hd)

namespace Numeral

/-- The text of a fraction. -/
def fractionText (row : List ℕ) : List Char :=
  if row.isEmpty then [] else '.' :: writeDigits row

/-- The text of an exponent, which always has a sign. -/
def exponentText : Option (Bool × List ℕ) → List Char
  | none => []
  | some (negative, row) => 'e' :: (if negative then '-' else '+') :: writeDigits row

/-- The text of a numeral. -/
def text (n : Numeral) : List Char :=
  (if n.negative then ['-'] else []) ++
    (writeDigits n.whole ++ (fractionText n.fraction ++ exponentText n.exponent))

/-- A numeral that can be written: its rows are rows of digits, no other digit follows
a leading zero, and an exponent has a digit. -/
structure IsWritten (n : Numeral) : Prop where
  whole_digits : ∀ d ∈ n.whole, d < 10
  fraction_digits : ∀ d ∈ n.fraction, d < 10
  leading : n.whole = [0] ∨ ∃ first rest, n.whole = first :: rest ∧ first ≠ 0
  exponent_digits : ∀ negative row, n.exponent = some (negative, row) →
    row ≠ [] ∧ ∀ d ∈ row, d < 10

/-- A written whole part is read back. -/
theorem readWhole_text {row : List ℕ} (hrow : ∀ d ∈ row, d < 10)
    (hleading : row = [0] ∨ ∃ first rest, row = first :: rest ∧ first ≠ 0) {rest : List Char}
    (hrest : EndsRow rest) : readWhole (writeDigits row ++ rest) = some (row, rest) := by
  rcases hleading with rfl | ⟨first, others, rfl, hfirst⟩
  · rfl
  · have hread := readRow_writeDigits (List.cons_ne_nil first others) hrow hrest
    have hzero : digitChar first ≠ '0' := by
      refine digitChar_ne (hrow first (by simp)) fun heq => hfirst ?_
      exact (Option.some.inj heq).symm
    rw [writeDigits, List.map_cons, List.cons_append] at hread ⊢
    rw [readWhole, hread]
    intro after heq
    exact hzero (List.cons.inj heq).1

/-- A written fraction is read back. -/
theorem readFraction_text {row : List ℕ} (hrow : ∀ d ∈ row, d < 10) {rest : List Char}
    (hrest : EndsRow rest) (hpoint : rest.head? ≠ some '.') :
    readFraction (fractionText row ++ rest) = some (row, rest) := by
  cases row with
  | nil =>
    rw [fractionText, List.isEmpty_nil, if_pos rfl, List.nil_append, readFraction]
    rintro after rfl
    exact hpoint rfl
  | cons d row => exact readRow_writeDigits (List.cons_ne_nil d row) hrow hrest

/-- A written exponent is read back. -/
theorem readExponent_text {exponent : Option (Bool × List ℕ)}
    (hrow : ∀ negative row, exponent = some (negative, row) → row ≠ [] ∧ ∀ d ∈ row, d < 10)
    {rest : List Char} (hrest : EndsNumeral rest) :
    readExponent (exponentText exponent ++ rest) = some (exponent, rest) := by
  rcases exponent with _ | ⟨negative, row⟩
  · rw [exponentText, List.nil_append]
    unfold readExponent
    split
    · exact absurd rfl (hrest 'e' rfl).2.2.1
    · exact absurd rfl (hrest 'E' rfl).2.2.2
    · rfl
  · obtain ⟨hne, hdigits⟩ := hrow negative row rfl
    have hread := readRow_writeDigits hne hdigits hrest.endsRow
    cases negative <;> simp [exponentText, readExponent, readExponentDigits, readSign, hread]

/-- A numeral in the form in which numerals are written is read back. -/
theorem readUnsigned_text {n : Numeral} (h : n.IsWritten) {rest : List Char}
    (hrest : EndsNumeral rest) :
    readUnsigned n.negative
      (writeDigits n.whole ++ (fractionText n.fraction ++ (exponentText n.exponent ++ rest))) =
        some (n, rest) := by
  have hexponent := readExponent_text h.exponent_digits hrest
  have hafter : EndsRow (exponentText n.exponent ++ rest) ∧
      (exponentText n.exponent ++ rest).head? ≠ some '.' := by
    rcases n.exponent with _ | ⟨negative, row⟩
    · exact ⟨hrest.endsRow, fun heq => (hrest '.' heq).2.1 rfl⟩
    · exact ⟨endsRow_cons (by decide) _, by simp [exponentText]⟩
  have hfraction := readFraction_text h.fraction_digits hafter.1 hafter.2
  have hpoint : EndsRow (fractionText n.fraction ++ (exponentText n.exponent ++ rest)) := by
    unfold fractionText
    split
    · exact hafter.1
    · exact endsRow_cons (by decide) _
  have hwhole := readWhole_text h.whole_digits h.leading hpoint
  simp [readUnsigned, hwhole, hfraction, hexponent]

/-- The digits before the point start with a digit. -/
theorem IsWritten.exists_whole_eq {n : Numeral} (h : n.IsWritten) :
    ∃ d row, n.whole = d :: row ∧ d < 10 := by
  rcases h.leading with heq | ⟨d, row, heq, -⟩
  · exact ⟨0, [], heq, by decide⟩
  · exact ⟨d, row, heq, h.whole_digits d (by simp [heq])⟩

/-- The text of a numeral is read as that numeral. -/
theorem readNumeral_text {n : Numeral} (h : n.IsWritten) {rest : List Char}
    (hrest : EndsNumeral rest) : readNumeral (n.text ++ rest) = some (n, rest) := by
  have hunsigned := readUnsigned_text h hrest
  unfold text
  cases hsign : n.negative with
  | true =>
    rw [hsign] at hunsigned
    simpa [readNumeral] using hunsigned
  | false =>
    obtain ⟨d, row, hwhole, hd⟩ := h.exists_whole_eq
    have hminus : digitChar d ≠ '-' := digitChar_ne hd (Option.some_ne_none d).symm
    rw [hsign, hwhole] at hunsigned
    rw [if_neg (by decide), List.nil_append, List.append_assoc, List.append_assoc, hwhole,
      readNumeral, hunsigned]
    rintro after heq
    exact hminus (List.cons.inj heq).1

end Numeral

/-- What starts with a digit or a minus sign is read as a numeral. -/
theorem readToken_of_numeral {c : Char} (hc : c = '-' ∨ (digitValue c).isSome) (rest : List Char) :
    readToken (c :: rest) =
      (readNumeral (c :: rest)).map fun (n, after) => (.number n, after) := by
  have hother : ∀ d : Char, (d ≠ '-' ∧ digitValue d = none) → c ≠ d := by
    rintro d ⟨hminus, hdigit⟩ rfl
    rcases hc with hc | hc
    · exact hminus hc
    · rw [hdigit] at hc
      exact absurd hc (by decide)
  rw [readToken]
  all_goals
    intro _ heq
    exact hother _ (by decide) (List.cons.inj heq).1

/-- The text of a numeral begins with the token of that numeral. -/
theorem readToken_numeral {n : Numeral} (h : n.IsWritten) {rest : List Char}
    (hrest : EndsNumeral rest) : readToken (n.text ++ rest) = some (.number n, rest) := by
  have hread := Numeral.readNumeral_text h hrest
  obtain ⟨d, row, hwhole, hd⟩ := h.exists_whole_eq
  have hstart : ∃ c after, n.text ++ rest = c :: after ∧ (c = '-' ∨ (digitValue c).isSome) := by
    unfold Numeral.text
    rw [hwhole, writeDigits, List.map_cons]
    cases n.negative
    · exact ⟨digitChar d, _, rfl, Or.inr (by rw [digitValue_digitChar hd]; rfl)⟩
    · exact ⟨'-', _, rfl, Or.inl rfl⟩
  obtain ⟨c, after, heq, hc⟩ := hstart
  rw [heq] at hread ⊢
  rw [readToken_of_numeral hc, hread]
  rfl

/-! ## Strings -/

/-- A control character is escaped with four hexadecimal digits, which stand for it. -/
theorem unicodeEscape_ofNat : ∀ code < 32,
    unicodeEscape (Char.ofNat code) =
        ['\\', 'u', '0', '0', Nat.digitChar (code / 16), Nat.digitChar (code % 16)] ∧
      hexNumber ['0', '0', Nat.digitChar (code / 16), Nat.digitChar (code % 16)] = some code := by
  decide

/-- A short escape is read as its character. -/
theorem readString_shortEscape {c e : Char} (he : shortEscape e = some c) (rest : List Char) :
    readString ('\\' :: e :: rest) =
      (readString rest).map fun (units, after) => (c.toNat :: units, after) := by
  have hu : e ≠ 'u' := by
    rintro rfl
    exact absurd he (by simp [shortEscape])
  rw [readString, he]
  · cases readString rest <;> rfl
  · intro _ _ _ _ _ heq
    exact absurd heq hu

/-- A character that needs no escape is read as it stands. -/
theorem readString_plain {c : Char} (hquote : c ≠ '"') (hescape : c ≠ '\\')
    (hcode : ¬c.toNat < 0x20) (rest : List Char) :
    readString (c :: rest) =
      (readString rest).map fun (units, after) => (c.toNat :: units, after) := by
  rw [readString, if_neg (by simp [hcode, hescape])]
  · exact hquote
  · intro _ _ _ _ _ heq
    exact absurd heq hescape
  · intro _ _ heq
    exact absurd heq hescape

/-- A control character is read back from its escape. -/
theorem readString_unicodeEscape {c : Char} (hcode : c.toNat < 0x20) (rest : List Char) :
    readString (unicodeEscape c ++ rest) =
      (readString rest).map fun (units, after) => (c.toNat :: units, after) := by
  obtain ⟨htext, hvalue⟩ := unicodeEscape_ofNat c.toNat hcode
  rw [Char.ofNat_toNat] at htext
  rw [htext]
  simp only [List.cons_append, List.nil_append, readString, hvalue, Option.bind_eq_bind]
  cases readString rest <;> rfl

/-- An escaped character is read back. -/
theorem readString_escape_append (c : Char) (rest : List Char) :
    readString (escape c ++ rest) =
      (readString rest).map fun (units, after) => (c.toNat :: units, after) := by
  unfold escape
  split_ifs with hquote hbackslash hback hform hline hreturn htab hcontrol
  · exact hquote ▸ readString_shortEscape (e := '"') rfl rest
  · exact hbackslash ▸ readString_shortEscape (e := '\\') rfl rest
  · exact hback ▸ readString_shortEscape (e := 'b') rfl rest
  · exact hform ▸ readString_shortEscape (e := 'f') rfl rest
  · exact hline ▸ readString_shortEscape (e := 'n') rfl rest
  · exact hreturn ▸ readString_shortEscape (e := 'r') rfl rest
  · exact htab ▸ readString_shortEscape (e := 't') rfl rest
  · exact readString_unicodeEscape hcontrol rest
  · exact readString_plain hquote hbackslash hcontrol rest

/-- The escaped characters of a string and its closing quote are read as its characters. -/
theorem readString_escape (text rest : List Char) :
    readString (text.flatMap escape ++ '"' :: rest) = some (text.map Char.toNat, rest) := by
  induction text with
  | nil => rfl
  | cons c text ih => rw [List.flatMap_cons, List.append_assoc, readString_escape_append, ih]; rfl

/-- A written string begins with the token of its characters. -/
theorem readToken_string (s : String) (rest : List Char) :
    readToken (writeString s ++ rest) = some (.string (s.toList.map Char.toNat), rest) := by
  have hread := readString_escape s.toList rest
  simp only [writeString, List.cons_append, List.append_assoc, List.nil_append, readToken, hread]
  rfl

end SqlFragments.Json
