import Mathlib.Data.List.Induction
import SqlFragments.Proofs.Json.RoundTrip

/-!
# Texts of scalars

A text whose document is a scalar has one token, with blanks around it.  For an integer
more is known: reading keeps every digit, and digits without a needless zero are those of
the number they stand for, so the text is the number in decimal.  What opens with a bracket
is an array or an object, whatever follows: once a frame is open, the machine can only
complete the value of a frame.

Main results:

- `Numeral.text_of_readNumeral`: an integer is read from its own text.
- `run_value_cases`: a document is one token, or it starts with a bracket and is no scalar.
- `Spells.parse` and `spells_of_parse`: the texts whose document is a natural number.
- `opens_iff`: the texts of arrays and objects.
-/

namespace SqlFragments.Number

/-! ## Digits -/

/-- A character that has a value as a digit is written for that value. -/
theorem digitChar_of_digitValue {c : Char} {d : ℕ} (h : digitValue c = some d) :
    d < 10 ∧ digitChar d = c := by
  unfold digitValue at h
  split at h
  case isFalse => cases h
  case isTrue hrange =>
    obtain ⟨hlow, hhigh⟩ := hrange
    have hlow : 48 ≤ c.toNat := hlow
    have hhigh : c.toNat ≤ 57 := hhigh
    have hd : c.toNat - 48 = d := Option.some.inj h
    refine ⟨by omega, ?_⟩
    have hcode : '0'.toNat + d = c.toNat := by
      change 48 + d = c.toNat
      omega
    rw [digitChar, hcode, Char.ofNat_toNat]

/-- Reading digits divides the text. -/
theorem readDigits_append (text : List Char) :
    writeDigits (readDigits text).1 ++ (readDigits text).2 = text ∧
      ∀ d ∈ (readDigits text).1, d < 10 := by
  induction text with
  | nil => simp [readDigits, writeDigits]
  | cons c rest ih =>
    rw [readDigits]
    cases hc : digitValue c with
    | none => simp [writeDigits]
    | some d =>
      obtain ⟨hd, hchar⟩ := digitChar_of_digitValue hc
      obtain ⟨happend, hdigits⟩ := ih
      refine ⟨?_, ?_⟩
      · change digitChar d :: (writeDigits _ ++ _) = c :: rest
        rw [hchar, happend]
      · intro e he
        rcases List.mem_cons.1 he with rfl | he
        · exact hd
        · exact hdigits e he

/-- Digits without a needless zero are the digits of the number they stand for. -/
theorem digits_ofDigits {row : List ℕ} (hdigits : ∀ d ∈ row, d < 10)
    (hleading : row = [0] ∨ ∃ first rest, row = first :: rest ∧ first ≠ 0) :
    digits (ofDigits row) = row := by
  rcases hleading with rfl | ⟨first, rest, rfl, hfirst⟩
  · rw [digits]
    rfl
  · induction rest using List.reverseRecOn with
    | nil =>
      have hvalue : ofDigits [first] = first := Nat.zero_add first
      rw [hvalue, digits, if_pos (hdigits first (by simp))]
    | append_singleton rest d ih =>
      rw [← List.cons_append] at hdigits ⊢
      have hd : d < 10 := hdigits d (by simp)
      have hinit : ∀ e ∈ first :: rest, e < 10 := fun e he => hdigits e (List.mem_append_left _ he)
      have hpos : 0 < ofDigits (first :: rest) :=
        Scientific.IsNormal.ofDigits_pos (d := ⟨first :: rest, 0⟩) ⟨hinit, first, rest, rfl, hfirst⟩
      have hquotient : (10 * ofDigits (first :: rest) + d) / 10 = ofDigits (first :: rest) := by
        omega
      have hremainder : (10 * ofDigits (first :: rest) + d) % 10 = d := by omega
      rw [ofDigits_append_singleton, digits, if_neg (by omega), hquotient, hremainder, ih hinit]

/-- A natural number is written the same as an integer. -/
theorem decimalInt_natCast (n : ℕ) : decimalInt n = decimal n := by
  rw [decimalInt, if_neg (by omega), Int.natAbs_natCast]

end SqlFragments.Number

namespace SqlFragments.Json

open Number

/-! ## Integers are read from their text -/

section

variable {text after : List Char}

/-- A row is read from its digits. -/
theorem readRow_eq_some {row : List ℕ} (h : readRow text = some (row, after)) :
    row ≠ [] ∧ (∀ d ∈ row, d < 10) ∧ text = writeDigits row ++ after := by
  obtain ⟨happend, hdigits⟩ := readDigits_append text
  unfold readRow at h
  split at h
  case isTrue => cases h
  case isFalse hne =>
    have hread : readDigits text = (row, after) := Option.some.inj h
    rw [hread] at hne happend hdigits
    exact ⟨by simpa using hne, hdigits, happend.symm⟩

/-- The digits before the point are read from themselves, and no other digit follows a
leading zero. -/
theorem readWhole_eq_some {row : List ℕ} (h : readWhole text = some (row, after)) :
    (∀ d ∈ row, d < 10) ∧ (row = [0] ∨ ∃ first rest, row = first :: rest ∧ first ≠ 0) ∧
      text = writeDigits row ++ after := by
  unfold readWhole at h
  split at h
  · cases h
    exact ⟨by simp, .inl rfl, rfl⟩
  · rename_i hzero
    obtain ⟨hne, hdigits, htext⟩ := readRow_eq_some h
    refine ⟨hdigits, .inr ?_, htext⟩
    cases row with
    | nil => exact absurd rfl hne
    | cons first rest =>
      refine ⟨first, rest, rfl, ?_⟩
      rintro rfl
      exact hzero _ htext

/-- Where no digit of a fraction is read, there is no point. -/
theorem readFraction_eq_nil (h : readFraction text = some ([], after)) : after = text := by
  unfold readFraction at h
  split at h
  · exact absurd rfl (readRow_eq_some h).1
  · cases h
    rfl

/-- Where no exponent is read, there is none. -/
theorem readExponent_eq_none (h : readExponent text = some (none, after)) : after = text := by
  have hdigits : ∀ rest, readExponentDigits rest ≠ some (none, after) := by
    intro rest hrest
    obtain ⟨⟨row, last⟩, -, heq⟩ := Option.map_eq_some_iff.1 hrest
    cases heq
  unfold readExponent at h
  split at h
  · exact absurd h (hdigits _)
  · exact absurd h (hdigits _)
  · cases h
    rfl

namespace Numeral

variable {n : Numeral}

/-- An integral numeral is well written and is read from its own digits. -/
theorem readUnsigned_eq_integer {negative : Bool}
    (h : readUnsigned negative text = some (n, after)) (hinteger : n.isInteger = true) :
    n.negative = negative ∧ n.IsWritten ∧ text = writeDigits n.whole ++ after := by
  simp only [readUnsigned, Option.bind_eq_bind, Option.bind_eq_some_iff, Option.pure_def,
    Option.some.injEq, Prod.exists, Prod.mk.injEq] at h
  obtain ⟨whole, afterWhole, hwhole, fraction, afterFraction, hfraction, exponent,
    afterExponent, hexponent, rfl, rfl⟩ := h
  simp only [isInteger, Bool.and_eq_true, List.isEmpty_iff, Option.isNone_iff_eq_none] at hinteger
  obtain ⟨rfl, rfl⟩ := hinteger
  obtain ⟨hdigits, hleading, htext⟩ := readWhole_eq_some hwhole
  rw [readExponent_eq_none hexponent, readFraction_eq_nil hfraction]
  exact ⟨rfl, ⟨hdigits, by simp, hleading, by simp⟩, htext⟩

/-- An integer is read from its own text. -/
theorem text_of_readNumeral (h : readNumeral text = some (n, after))
    (hinteger : n.isInteger = true) : n.IsWritten ∧ text = n.text ++ after := by
  have hshape := hinteger
  simp only [isInteger, Bool.and_eq_true, List.isEmpty_iff, Option.isNone_iff_eq_none] at hshape
  unfold readNumeral at h
  split at h
  · obtain ⟨hsign, hwritten, htext⟩ := readUnsigned_eq_integer h hinteger
    exact ⟨hwritten, by simp [Numeral.text, hsign, hshape, fractionText, exponentText, htext]⟩
  · obtain ⟨hsign, hwritten, htext⟩ := readUnsigned_eq_integer h hinteger
    exact ⟨hwritten, by simp [Numeral.text, hsign, hshape, fractionText, exponentText, htext]⟩

/-- The numeral of an integer that is written is the numeral of its number. -/
theorem IsWritten.eq_ofInt (h : n.IsWritten) (hinteger : n.isInteger = true)
    (hsign : n.negative = false) : n = ofInt (ofDigits n.whole) := by
  obtain ⟨negative, whole, fraction, exponent⟩ := n
  simp only [isInteger, Bool.and_eq_true, List.isEmpty_iff, Option.isNone_iff_eq_none] at hinteger
  obtain ⟨rfl, rfl⟩ := hinteger
  have hnonneg : ¬(ofDigits whole : ℤ) < 0 := by omega
  simp only [ofInt, hnonneg, decide_false, Int.natAbs_natCast,
    digits_ofDigits h.whole_digits h.leading] at hsign ⊢
  rw [hsign]

end Numeral

/-! ## Tokens between blanks -/

/-- Blanks before a text add no token. -/
theorem tokenize_append {before : List Char} (hbefore : ∀ c ∈ before, isSpace c = true)
    (text : List Char) : tokenize (before ++ text) = tokenize text := by
  induction before with
  | nil => rfl
  | cons c before ih =>
    rw [List.cons_append, tokenize, if_pos (hbefore c (by simp))]
    exact ih fun d hd => hbefore d (by simp [hd])

/-- A text without a token is blank. -/
theorem isSpace_of_tokenize (h : tokenize text = some []) : ∀ c ∈ text, isSpace c = true := by
  fun_induction tokenize text with
  | case1 => simp
  | case2 c rest hc ih => simpa [hc] using ih h
  | case3 => cases h
  | case4 c rest hc t after hread ih => simp at h

/-- The first token of a text stands after blanks, and the other tokens are those of what
follows it. -/
theorem tokenize_eq_cons {t : Token} {tokens : List Token}
    (h : tokenize text = some (t :: tokens)) :
    ∃ before rest after, (∀ c ∈ before, isSpace c = true) ∧ text = before ++ rest ∧
      readToken rest = some (t, after) ∧ tokenize after = some tokens := by
  fun_induction tokenize text with
  | case1 => simp at h
  | case2 c rest hc ih =>
    obtain ⟨before, token, after, hbefore, rfl, hread, htokens⟩ := ih h
    exact ⟨c :: before, token, after, by simpa [hc] using hbefore, rfl, hread, htokens⟩
  | case3 => cases h
  | case4 c rest hc u after hread ih =>
    obtain ⟨others, hothers, heq⟩ := Option.map_eq_some_iff.1 h
    obtain ⟨rfl, rfl⟩ := List.cons.inj heq
    exact ⟨[], c :: rest, after, by simp, rfl, hread, hothers⟩

/-- The token of a numeral is read as that numeral. -/
theorem readNumeral_of_readToken {n : Numeral} (h : readToken text = some (.number n, after)) :
    readNumeral text = some (n, after) := by
  unfold readToken at h
  split at h
  case h_10 =>
    obtain ⟨⟨units, rest⟩, -, heq⟩ := Option.map_eq_some_iff.1 h
    cases heq
  case h_11 =>
    obtain ⟨⟨m, rest⟩, hread, heq⟩ := Option.map_eq_some_iff.1 h
    cases heq
    exact hread
  all_goals cases h

end

/-! ## Arrays and objects -/

/-- Whether a document is neither an array nor an object. -/
def isScalar : Json → Bool
  | .array _ => false
  | .object _ => false
  | _ => true

/-- A token that stands for a scalar stands for one that is neither an array nor an object. -/
theorem isScalar_of_scalar {t : Token} {v : Json} (h : t.scalar = some v) :
    v.isScalar = true := by
  cases t <;> simp [Token.scalar] at h <;> subst h <;> rfl

/-- An array or an object is open, or one is complete. -/
def Encloses (due : Due) (stack : List Frame) : Prop :=
  stack ≠ [] ∨ ∃ v, due = .rest v ∧ v.isScalar = false

/-- An open frame still encloses what follows. -/
theorem encloses_cons (due : Due) (frame : Frame) (stack : List Frame) :
    Encloses due (frame :: stack) := .inl (List.cons_ne_nil frame stack)

/-- A value that starts inside a frame stays inside one. -/
theorem startValue_encloses {t : Token} {due : Due} {stack after : List Frame}
    (hstack : stack ≠ []) (h : startValue t stack = some (due, after)) : Encloses due after := by
  unfold startValue at h
  split at h
  · cases h
    exact encloses_cons _ _ _
  · cases h
    exact encloses_cons _ _ _
  · obtain ⟨v, -, heq⟩ := Option.map_eq_some_iff.1 h
    cases heq
    exact .inl hstack

/-- A token leaves an array or an object open, or completes one. -/
theorem Encloses.step {t : Token} {due due' : Due} {stack stack' : List Frame}
    (h : Encloses due stack) (hstep : Json.step t due stack = some (due', stack')) :
    Encloses due' stack' := by
  unfold Json.step at hstep
  split at hstep
  case h_1 =>
    exact startValue_encloses (by simpa [Encloses] using h) hstep
  case h_2 =>
    split at hstep
    · cases hstep
      exact .inr ⟨_, rfl, rfl⟩
    · exact startValue_encloses (List.cons_ne_nil _ _) hstep
  case h_3 =>
    split at hstep
    · cases hstep
      exact .inr ⟨_, rfl, rfl⟩
    · cases hstep
      exact encloses_cons _ _ _
    · cases hstep
  case h_4 =>
    split at hstep
    · cases hstep
      exact encloses_cons _ _ _
    · cases hstep
  case h_5 =>
    split at hstep
    · cases hstep
      exact .inl (by simpa [Encloses] using h)
    · cases hstep
  case h_6 =>
    split at hstep
    · cases hstep
      exact encloses_cons _ _ _
    · cases hstep
      exact .inr ⟨_, rfl, rfl⟩
    · cases hstep
  case h_7 =>
    split at hstep
    · cases hstep
      exact encloses_cons _ _ _
    · cases hstep
      exact .inr ⟨_, rfl, rfl⟩
    · cases hstep
  case h_8 => cases hstep

/-- Once an array or an object is open, no scalar is completed. -/
theorem Encloses.isScalar_eq_false {tokens : List Token} {due : Due} {stack : List Frame}
    {v : Json} (h : Encloses due stack) (hrun : run tokens due stack = some v) :
    v.isScalar = false := by
  induction tokens generalizing due stack with
  | nil =>
    -- Tokens may end only after a value with nothing open around it.
    cases due with
    | rest w =>
      cases stack with
      | nil =>
        obtain rfl : w = v := Option.some.inj hrun
        simpa [Encloses] using h
      | cons frame stack => cases hrun
    | _ => cases hrun
  | cons t tokens ih =>
    rw [run] at hrun
    cases hstep : Json.step t due stack with
    | none => simp [hstep] at hrun
    | some next =>
      obtain ⟨due', stack'⟩ := next
      rw [hstep] at hrun
      exact ih (h.step hstep) hrun

/-- A document is completed by its only token, or it starts with a bracket and is no
scalar. -/
theorem run_value_cases {tokens : List Token} {v : Json} (h : run tokens .value [] = some v) :
    (∃ t, tokens = [t] ∧ t.scalar = some v) ∨
      ∃ t rest, tokens = t :: rest ∧ (t = .openBracket ∨ t = .openBrace) ∧ v.isScalar = false := by
  cases tokens with
  | nil => cases h
  | cons t rest =>
    cases hscalar : t.scalar with
    | some w =>
      left
      rw [run_scalar hscalar] at h
      cases rest with
      | nil =>
        obtain rfl : w = v := Option.some.inj h
        exact ⟨t, rfl, hscalar⟩
      | cons u rest => cases h
    | none =>
      right
      cases t <;> simp only [Token.scalar, reduceCtorEq] at hscalar
      case openBracket =>
        have hrun : run rest .elementOrEnd [.array []] = some v := h
        have hscalar := (encloses_cons _ _ _).isScalar_eq_false hrun
        exact ⟨.openBracket, rest, rfl, .inl rfl, hscalar⟩
      case openBrace =>
        have hrun : run rest .keyOrEnd [.object []] = some v := h
        have hscalar := (encloses_cons _ _ _).isScalar_eq_false hrun
        exact ⟨.openBrace, rest, rfl, .inr rfl, hscalar⟩
      all_goals cases h

/-- A scalar is completed by one token, which is its own. -/
theorem run_eq_scalar_iff {tokens : List Token} {v : Json} (hv : v.isScalar = true) :
    run tokens .value [] = some v ↔ ∃ t, tokens = [t] ∧ t.scalar = some v := by
  constructor
  · intro h
    rcases run_value_cases h with hone | ⟨t, rest, -, -, hnot⟩
    · exact hone
    · rw [hnot] at hv
      cases hv
  · rintro ⟨t, rfl, hscalar⟩
    rw [run_scalar hscalar]
    rfl

/-! ## Documents of texts -/

/-- A text that is a natural number in decimal, with blanks around it. -/
def Spells (text : String) (n : ℕ) : Prop :=
  ∃ before after, (∀ c ∈ before, isSpace c = true) ∧ (∀ c ∈ after, isSpace c = true) ∧
    text.toList = before ++ (decimal n ++ after)

/-- A text whose first character other than a blank is an opening bracket or brace. -/
def Opens (text : String) : Prop :=
  ∃ before c rest, (∀ d ∈ before, isSpace d = true) ∧ (c = '[' ∨ c = '{') ∧
    text.toList = before ++ c :: rest

/-- A scalar is the document of a text with one token. -/
theorem parse_eq_scalar_iff {text : String} {v : Json} (hv : v.isScalar = true) :
    parse text = some v ↔ ∃ t, tokenize text.toList = some [t] ∧ t.scalar = some v := by
  simp only [parse, Option.bind_eq_some_iff, run_eq_scalar_iff hv]
  constructor
  · rintro ⟨_, htokens, t, rfl, hscalar⟩
    exact ⟨t, htokens, hscalar⟩
  · rintro ⟨t, htokens, hscalar⟩
    exact ⟨[t], htokens, t, rfl, hscalar⟩

/-- The token of a bracket is read from that bracket. -/
theorem eq_cons_of_readToken {t : Token} {text after : List Char}
    (ht : t = .openBracket ∨ t = .openBrace) (h : readToken text = some (t, after)) :
    ∃ c, (c = '[' ∨ c = '{') ∧ text = c :: after := by
  unfold readToken at h
  split at h
  case h_1 =>
    cases h
    exact ⟨'[', .inl rfl, rfl⟩
  case h_3 =>
    cases h
    exact ⟨'{', .inr rfl, rfl⟩
  case h_10 =>
    obtain ⟨read, -, heq⟩ := Option.map_eq_some_iff.1 h
    cases heq
    simp at ht
  case h_11 =>
    obtain ⟨read, -, heq⟩ := Option.map_eq_some_iff.1 h
    cases heq
    simp at ht
  all_goals
    cases h
    simp at ht

/-- The texts of arrays and objects are those that open with a bracket. -/
theorem opens_iff {text : String} {v : Json} (hparse : parse text = some v) :
    Opens text ↔ v.isScalar = false := by
  obtain ⟨tokens, htokens, hrun⟩ := Option.bind_eq_some_iff.1 hparse
  constructor
  · rintro ⟨before, c, rest, hbefore, hc, htext⟩
    have hopen : ∃ t, readToken (c :: rest) = some (t, rest) ∧ t.scalar = none := by
      rcases hc with rfl | rfl
      · exact ⟨.openBracket, rfl, rfl⟩
      · exact ⟨.openBrace, rfl, rfl⟩
    obtain ⟨t, hread, hnone⟩ := hopen
    rw [htext, tokenize_append hbefore, tokenize_of_readToken hread] at htokens
    obtain ⟨others, -, rfl⟩ := Option.map_eq_some_iff.1 htokens
    rcases run_value_cases hrun with ⟨u, heq, hscalar⟩ | ⟨u, rest, -, -, hnot⟩
    · obtain rfl : t = u := (List.cons.inj heq).1
      rw [hnone] at hscalar
      cases hscalar
    · exact hnot
  · intro hv
    rcases run_value_cases hrun with ⟨t, -, hscalar⟩ | ⟨t, others, rfl, hbracket, -⟩
    · rw [isScalar_of_scalar hscalar] at hv
      cases hv
    · obtain ⟨before, rest, after, hbefore, htext, hread, -⟩ := tokenize_eq_cons htokens
      obtain ⟨c, hc, rfl⟩ := eq_cons_of_readToken hbracket hread
      exact ⟨before, c, after, hbefore, hc, htext⟩

/-- Blanks do not continue a numeral. -/
theorem endsNumeral_of_isSpace {rest : List Char} (h : ∀ c ∈ rest, isSpace c = true) :
    EndsNumeral rest := by
  intro c hc
  have hspace := h c (List.mem_of_mem_head? hc)
  simp only [isSpace, Bool.or_eq_true, beq_iff_eq] at hspace
  rcases hspace with ((rfl | rfl) | rfl) | rfl <;> decide

/-- The document of a natural number in decimal. -/
theorem Spells.parse {text : String} {n : ℕ} (h : Spells text n) :
    Json.parse text = some (.number (.ofInt n)) := by
  obtain ⟨before, after, hbefore, hafter, htext⟩ := h
  refine (parse_eq_scalar_iff rfl).2 ⟨.number (.ofInt n), ?_, rfl⟩
  have hdecimal : (Numeral.ofInt n).text = decimal n := by
    rw [Numeral.text_ofInt, decimalInt_natCast]
  have htoken := readToken_numeral (Numeral.isWritten_ofInt n) (endsNumeral_of_isSpace hafter)
  have hblank := tokenize_append hafter []
  rw [List.append_nil, tokenize] at hblank
  rw [htext, tokenize_append hbefore, ← hdecimal, tokenize_of_readToken htoken, hblank]
  rfl

/-- A text whose document stands for a positive number is that number in decimal. -/
theorem spells_of_parse {text : String} {m : Numeral} {n : ℕ} (hpos : 0 < n)
    (hparse : parse text = some (.number m)) (hread : m.read = some (.integer n)) :
    Spells text n := by
  obtain ⟨t, htokens, hscalar⟩ := (parse_eq_scalar_iff rfl).1 hparse
  obtain rfl : t = .number m := by
    cases t <;> simp_all [Token.scalar]
  obtain ⟨before, rest, after, hbefore, htext, htoken, hafter⟩ := tokenize_eq_cons htokens
  obtain ⟨hinteger, hvalue, -, -⟩ := Numeral.read_integer hread
  obtain ⟨hwritten, hrest⟩ := Numeral.text_of_readNumeral (readNumeral_of_readToken htoken) hinteger
  have hsign : m.negative = false := by
    cases hnegative : m.negative with
    | false => rfl
    | true =>
      rw [hnegative, if_pos rfl] at hvalue
      omega
  have hwhole : ofDigits m.whole = n := by
    rw [hsign, if_neg (by decide)] at hvalue
    exact_mod_cast hvalue.symm
  have hdecimal : m.text = decimal n := by
    rw [hwritten.eq_ofInt hinteger hsign, hwhole, Numeral.text_ofInt, decimalInt_natCast]
  exact ⟨before, after, hbefore, isSpace_of_tokenize hafter, by rw [htext, hrest, hdecimal]⟩

end SqlFragments.Json
