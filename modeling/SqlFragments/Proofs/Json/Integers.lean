import Mathlib.Tactic.IntervalCases
import SqlFragments.Proofs.Json.Agreement
import SqlFragments.Proofs.Json.LongLiterals
import SqlFragments.Proofs.Number.Closest

/-!
# Integer literals

An integer literal is a row of digits that may have a minus sign.  It is bound as the
integer it stands for, or refused, as long as its number is not below the 64-bit signed
range and fits a word.  Any other literal is bound as a double-precision number of its sign,
which is another number as a rule, unless the integer is too great for any finite one.

Main results:

- `Json.parse_literal`: an integer literal is a document unless it has a needless zero.
- `Value.literals_bound_exactly_up_to_words`: how integer literals are bound.
- `Value.literal_below_signed_range_replaced`: a literal that is bound as another number.
-/

namespace SqlFragments

open Number

attribute [local instance (high)] instPowNat

namespace Json

/-! ## Documents of literals -/

/-- An integer literal: digits, after a minus sign if it is negative. -/
def literal (negative : Bool) (row : List ℕ) : String :=
  String.ofList ((if negative then ['-'] else []) ++ writeDigits row)

/-- Digits without a needless zero in front of them. -/
def IsPlain (row : List ℕ) : Prop := row = [0] ∨ ∃ first rest, row = first :: rest ∧ first ≠ 0

/-- The integer that a literal stands for. -/
def literalInt (negative : Bool) (row : List ℕ) : ℤ :=
  if negative then -(ofDigits row : ℤ) else ofDigits row

@[simp]
theorem natAbs_literalInt (negative : Bool) (row : List ℕ) :
    (literalInt negative row).natAbs = ofDigits row := by
  cases negative <;> simp [literalInt]

section

variable {negative : Bool} {row : List ℕ}

/-- The document of the text of a numeral. -/
theorem parse_text {n : Numeral} (h : n.IsWritten) :
    parse (String.ofList n.text) = some (.number n) := by
  have htoken : readToken (n.text ++ []) = some (.number n, []) :=
    readToken_numeral h (by simp [EndsNumeral])
  refine (parse_eq_scalar_iff rfl).2 ⟨.number n, ?_, rfl⟩
  rw [List.append_nil] at htoken
  rw [String.toList_ofList, tokenize_of_readToken htoken, tokenize]
  rfl

/-- A literal without a needless zero is a numeral. -/
theorem parse_literal (hrow : ∀ d ∈ row, d < 10) (hplain : IsPlain row) :
    parse (literal negative row) = some (.number ⟨negative, row, [], none⟩) := by
  have hwritten : Numeral.IsWritten ⟨negative, row, [], none⟩ := ⟨hrow, by simp, hplain, by simp⟩
  rw [← parse_text hwritten, literal, Numeral.text, Numeral.fractionText, Numeral.exponentText]
  simp

/-- A digit begins neither a fraction nor an exponent. -/
theorem readFraction_digit {d : ℕ} (hd : d < 10) (after : List Char) :
    readFraction (digitChar d :: after) = some ([], digitChar d :: after) ∧
      readExponent (digitChar d :: after) = some (none, digitChar d :: after) := by
  interval_cases d <;> exact ⟨rfl, rfl⟩

/-- A zero with more digits after it is a token of its own. -/
theorem readToken_literal_zero {first : ℕ} (hfirst : first < 10) (rest : List ℕ) :
    readToken (literal negative (0 :: first :: rest)).toList =
      some (.number ⟨negative, [0], [], none⟩, writeDigits (first :: rest)) := by
  obtain ⟨hfraction, hexponent⟩ := readFraction_digit hfirst (writeDigits rest)
  have hunsigned : ∀ sign, readUnsigned sign ('0' :: writeDigits (first :: rest)) =
      some (⟨sign, [0], [], none⟩, writeDigits (first :: rest)) := by
    intro sign
    change readUnsigned sign ('0' :: digitChar first :: writeDigits rest) = _
    simp only [readUnsigned, readWhole, Option.bind_eq_bind, Option.bind_some, hfraction, hexponent]
    rfl
  rw [literal, String.toList_ofList]
  cases negative with
  | true => exact (readToken_of_numeral (.inl rfl) _).trans (congrArg _ (hunsigned true))
  | false => exact (readToken_of_numeral (.inr rfl) _).trans (congrArg _ (hunsigned false))

/-- Two numerals are no document, and a needless zero is a numeral of its own. -/
theorem parse_literal_zero (negative : Bool) (hrow : ∀ d ∈ row, d < 10) (hne : row ≠ []) :
    parse (literal negative (0 :: row)) = none := by
  obtain ⟨first, rest, rfl⟩ := List.exists_cons_of_ne_nil hne
  have hfirst := hrow first (by simp)
  have hblank : ∀ d < 10, isSpace (digitChar d) = false := by decide
  rw [Option.eq_none_iff_forall_ne_some]
  intro v hparse
  obtain ⟨tokens, htokens, hrun⟩ := Option.bind_eq_some_iff.1 hparse
  rw [tokenize_of_readToken (readToken_literal_zero hfirst rest)] at htokens
  obtain ⟨others, hothers, rfl⟩ := Option.map_eq_some_iff.1 htokens
  rcases run_value_cases hrun with ⟨t, heq, -⟩ | ⟨t, others, heq, hbracket, -⟩
  · obtain rfl : others = [] := (List.cons.inj heq).2
    have hspace := isSpace_of_tokenize hothers (digitChar first) (by simp [writeDigits])
    rw [hblank first hfirst] at hspace
    cases hspace
  · obtain rfl := (List.cons.inj heq).1
    simp at hbracket

/-! ## What literals stand for -/

/-- A literal that fits a word stands for its integer, except that a negative zero and what is
below the signed range are double-precision numbers. -/
theorem read_literal_of_lt (negative : Bool) (hfits : ofDigits row < Numeral.wordSize) :
    (Numeral.mk negative row [] none).read =
      some (if negative ∧ (ofDigits row = 0 ∨ 2 ^ (63 : ℕ) < ofDigits row) then
        .float (Binary.ofNat (ofDigits row)).neg
      else .integer (literalInt negative row)) := by
  cases negative <;> simp [Numeral.read, Numeral.isInteger, hfits, literalInt]
  split_ifs <;> rfl

/-- A literal that does not fit a word is read like a fraction. -/
theorem read_literal_of_le (negative : Bool) (hle : Numeral.wordSize ≤ ofDigits row) :
    (Numeral.mk negative row [] none).read =
      (Numeral.mk negative row [] none).readFloat.map .float := by
  simp [Numeral.read, hle.not_gt]

/-- A literal between the least signed integer and the greatest word stands for its integer,
unless it is a negative zero. -/
theorem read_literal_eq_integer (hlow : -2 ^ (63 : ℕ) ≤ literalInt negative row)
    (hhigh : literalInt negative row < 2 ^ (64 : ℕ))
    (hzero : ¬(negative ∧ ofDigits row = 0)) :
    (Numeral.mk negative row [] none).read =
      some (.integer (literalInt negative row)) := by
  have hmagnitude : ofDigits row < Numeral.wordSize ∧
      ¬(negative ∧ (ofDigits row = 0 ∨ 2 ^ (63 : ℕ) < ofDigits row)) := by
    unfold literalInt at hlow hhigh
    unfold Numeral.wordSize
    cases negative <;> simp at hlow hhigh hzero ⊢ <;> omega
  rw [read_literal_of_lt negative hmagnitude.1, if_neg hmagnitude.2]

end

end Json

namespace Value

/-! ## Values of literals -/

/-- The number that a value stands for, if it is a number. -/
def quantity? : Value → Option ℚ
  | .int i => some i.toInt
  | .float x => if x.isFinite then some x.value else none
  | _ => none

section

variable {negative : Bool} {row : List ℕ}

/-- A number is bound and decoded as what its numeral stands for. -/
theorem readings_of_number {text : String} {n : Json.Numeral}
    (h : Json.parse text = some (.number n)) :
    bindText text = bindJson (.number n) ∧ decodeText text = decodeJson (.number n) := by
  have hreadable : Json.isReadable (.number n) = n.read.isSome := by
    simp [Json.isReadable, Json.isSound, Json.depth]
  rw [bindText, decodeText, Json.parseReadable, h, Option.filter_some, hreadable]
  cases hread : n.read with
  | none => simp [bindJson, bindNumeral, decodeNumeral, hread]
  | some reading => exact ⟨rfl, rfl⟩

/-- A number of double precision is bound and decoded as that number. -/
theorem readings_of_float {text : String} {n : Json.Numeral} {y : Binary64}
    (h : Json.parse text = some (.number n)) (hread : n.read = some (.float y)) :
    bindText text = .ok (.float y) ∧ decodeText text = some (.float y) := by
  obtain ⟨hbind, hdecode⟩ := readings_of_number h
  rw [hbind, hdecode]
  simp [bindJson, bindNumeral, decodeNumeral, hread]

section

variable (hrow : ∀ d ∈ row, d < 10) (hplain : Json.IsPlain row)

include hrow hplain

/-- A literal in the signed range is bound as its integer, unless it is a negative zero. -/
theorem bindText_literal_of_signed (hlow : -2 ^ (63 : ℕ) ≤ Json.literalInt negative row)
    (hhigh : Json.literalInt negative row < 2 ^ (63 : ℕ))
    (hzero : ¬(negative ∧ ofDigits row = 0)) :
    bindText (Json.literal negative row) =
      .ok (.int (Int64.ofInt (Json.literalInt negative row))) := by
  have hread := Json.read_literal_eq_integer hlow (by omega) hzero
  have hint : ofInt (Json.literalInt negative row) =
      some (.int (Int64.ofInt (Json.literalInt negative row))) := if_pos ⟨hlow, hhigh⟩
  rw [(readings_of_number (Json.parse_literal hrow hplain)).1]
  simp [bindJson, bindNumeral, hread, hint]

/-- A negative zero is bound as the negative zero of double precision. -/
theorem bindText_literal_of_zero (hsign : negative = true) (hzero : ofDigits row = 0) :
    ∃ y : Binary64, bindText (Json.literal negative row) = .ok (.float y) ∧
      (Value.float y).quantity? = some 0 := by
  have hfits : ofDigits row < Json.Numeral.wordSize := hzero ▸ Nat.two_pow_pos 64
  have hread := Json.read_literal_of_lt negative hfits
  rw [if_pos ⟨hsign, .inl hzero⟩, hzero] at hread
  exact ⟨(Binary.ofNat 0).neg, (readings_of_float (Json.parse_literal hrow hplain) hread).1,
    by decide +kernel⟩

/-- A literal above the signed range that fits a word is refused by its integer. -/
theorem bindText_literal_of_word {n : ℕ} (hn : Json.literalInt negative row = n)
    (hlow : 2 ^ (63 : ℕ) ≤ n) (hhigh : n < 2 ^ (64 : ℕ)) :
    bindText (Json.literal negative row) =
      .error (.refused (.unsupportedValue (.integer n))) := by
  have hzero : ¬(negative ∧ ofDigits row = 0) := by
    rintro ⟨rfl, hzero⟩
    simp [Json.literalInt, hzero] at hn
    omega
  have hread := Json.read_literal_eq_integer (by omega) (by rw [hn]; exact_mod_cast hhigh) hzero
  have hwide : IsWide (.number ⟨negative, row, [], none⟩) n := ⟨_, rfl, hn ▸ hread, hlow⟩
  rw [(readings_of_number (Json.parse_literal hrow hplain)).1, hwide.bindJson_eq]

/-- A literal below the signed range whose digits fit a word is bound as the double-precision
number closest to its integer. -/
theorem bindText_literal_below (hlow : -2 ^ (64 : ℕ) < Json.literalInt negative row)
    (hhigh : Json.literalInt negative row < -2 ^ (63 : ℕ)) :
    ∃ y : Binary64, bindText (Json.literal negative row) = .ok (.float y) ∧ y.negative = true ∧
      y.IsClosest (Json.literalInt negative row) := by
  have hmagnitude : negative = true ∧ ofDigits row < Json.Numeral.wordSize ∧
      2 ^ (63 : ℕ) < ofDigits row := by
    unfold Json.literalInt at hlow hhigh
    unfold Json.Numeral.wordSize
    cases negative <;> simp at hlow hhigh ⊢ <;> omega
  obtain ⟨rfl, hfits, hgreat⟩ := hmagnitude
  have hint : Json.literalInt true row = -(ofDigits row : ℤ) := rfl
  have hsame : (Binary.ofInt (-(ofDigits row : ℤ)) : Binary64) =
      (Binary.ofNat (ofDigits row)).neg := by
    have hsign : decide (-(ofDigits row : ℤ) < 0) = true := decide_eq_true (by omega)
    rw [Binary.ofInt, hsign, Int.natAbs_neg, Int.natAbs_natCast]
    rfl
  have hbound : Format.double.nearest (Json.Numeral.wordSize * Format.double.one) 1 <
      Format.double.infinity := by decide +kernel
  have hfinite := Binary.isFinite_ofInt (i := -(ofDigits row : ℤ))
    Format.double_fractionBits_pos hbound (by simpa using hfits.le)
  have hread := Json.read_literal_of_lt true hfits
  rw [if_pos ⟨rfl, .inr hgreat⟩] at hread
  refine ⟨(Binary.ofNat (ofDigits row)).neg,
    (readings_of_float (Json.parse_literal hrow hplain) hread).1, rfl, ?_⟩
  rw [hint, ← hsame]
  exact (Binary.isClosest_ofInt (by decide) Format.double_fractionBits_pos hfinite).1

/-- A literal whose digits do not fit a word is bound as a finite number with its sign that is
near the closest one, unless it has no number. -/
theorem bindText_literal_beyond (hgreat : 2 ^ (64 : ℕ) ≤ (Json.literalInt negative row).natAbs) :
    ∃ code, Format.double.IsNearest
        ((Json.literalInt negative row).natAbs * Format.double.one) code ∧
      ((bindText (Json.literal negative row) = .error .malformed ∧
          Format.double.infinity ≤ code + 3) ∨
        ∃ y : Binary64, bindText (Json.literal negative row) = .ok (.float y) ∧
          y.isFinite = true ∧ y.negative = negative ∧ y.code ≤ code + 3 ∧ code ≤ y.code + 3) := by
  rw [Json.natAbs_literalInt] at hgreat ⊢
  have hparse : Json.parse (Json.literal negative row) =
      some (.number ⟨negative, row, [], none⟩) :=
    Json.parse_literal hrow hplain
  have hread := Json.read_literal_of_le negative hgreat
  have hnearest := Binary.isNearest_ofNat Format.double_fractionBits_pos (ofDigits row)
    (f := Format.double)
  refine ⟨_, hnearest, ?_⟩
  rcases Json.Numeral.readFloat_long hrow hgreat negative hnearest with
    ⟨hfloat, hinfinity⟩ | ⟨y, hfloat, hnear⟩
  · left
    refine ⟨?_, hinfinity⟩
    rw [(readings_of_number hparse).1]
    simp [bindJson, bindNumeral, hread, hfloat]
  · right
    rw [hfloat] at hread
    exact ⟨y, (readings_of_float hparse hread).1, hnear⟩

end

/-- Integer literals are bound exactly or refused, as far down as the least signed integer and
as far up as the greatest word.  A literal with a needless zero is no document.  Any other
literal in the signed range is bound as its integer, except that the negative zero is a number
of double precision.  Above the signed range a literal that fits a word is refused by its
integer.  The literals further out are not refused for their size.  Below the signed range
a literal is bound as the double-precision number closest to it, while its digits fit a word.
Digits that do not fit a word are bound as a finite number with the sign of the literal that is
at most three codes from the closest one; and where the closest one is that near infinity, the
text may be no document instead. -/
theorem literals_bound_exactly_up_to_words (negative : Bool) (row : List ℕ) (hne : row ≠ [])
    (hrow : ∀ d ∈ row, d < 10) :
    (¬Json.IsPlain row → bindText (Json.literal negative row) = .error .malformed) ∧
    (Json.IsPlain row → ∀ i : ℤ, i = Json.literalInt negative row →
      (-2 ^ (63 : ℕ) ≤ i → i < 2 ^ (63 : ℕ) →
        ∃ v, bindText (Json.literal negative row) = .ok v ∧ v.quantity? = some (i : ℚ) ∧
          (¬(negative = true ∧ i = 0) → v = .int (Int64.ofInt i))) ∧
      (2 ^ (63 : ℕ) ≤ i → i < 2 ^ (64 : ℕ) →
        bindText (Json.literal negative row) =
          .error (.refused (.unsupportedValue (.integer i.toNat)))) ∧
      (-2 ^ (64 : ℕ) < i → i < -2 ^ (63 : ℕ) →
        ∃ y : Binary64, bindText (Json.literal negative row) = .ok (.float y) ∧
          y.negative = true ∧ y.IsClosest i) ∧
      (2 ^ (64 : ℕ) ≤ i.natAbs →
        ∃ code, Format.double.IsNearest (i.natAbs * Format.double.one) code ∧
          ((bindText (Json.literal negative row) = .error .malformed ∧
              Format.double.infinity ≤ code + 3) ∨
            ∃ y : Binary64, bindText (Json.literal negative row) = .ok (.float y) ∧
              y.isFinite = true ∧ y.negative = negative ∧
              y.code ≤ code + 3 ∧ code ≤ y.code + 3))) := by
  refine ⟨?needless, ?plain⟩
  case needless =>
    intro hplain
    obtain ⟨first, rest, rfl⟩ := List.exists_cons_of_ne_nil hne
    obtain rfl : first = 0 := by
      by_contra hfirst
      exact hplain (.inr ⟨first, rest, rfl, hfirst⟩)
    have hrest : rest ≠ [] := by
      rintro rfl
      exact hplain (.inl rfl)
    have hparse := Json.parse_literal_zero negative
      (fun d hd => hrow d (List.mem_cons_of_mem 0 hd)) hrest
    rw [bindText, Json.parseReadable, hparse]
    rfl
  case plain =>
    rintro hplain i rfl
    refine ⟨?signed, ?word, bindText_literal_below hrow hplain,
      bindText_literal_beyond hrow hplain⟩
    case signed =>
      intro hlow hhigh
      by_cases hzero : negative = true ∧ ofDigits row = 0
      · obtain ⟨y, hbound, hvalue⟩ := bindText_literal_of_zero hrow hplain hzero.1 hzero.2
        have hint : Json.literalInt negative row = 0 := by
          rw [← Int.natAbs_eq_zero, Json.natAbs_literalInt, hzero.2]
        refine ⟨_, hbound, ?_, fun hne => absurd ⟨hzero.1, hint⟩ hne⟩
        rw [hvalue, hint, Int.cast_zero]
      · have hbound := bindText_literal_of_signed hrow hplain hlow hhigh hzero
        refine ⟨_, hbound, ?_, fun _ => rfl⟩
        rw [quantity?, Int64.toInt_ofInt_of_le hlow hhigh]
    case word =>
      intro hlow hhigh
      have hn := (Int.toNat_of_nonneg (by omega : 0 ≤ Json.literalInt negative row)).symm
      exact bindText_literal_of_word hrow hplain hn (by omega) (by omega)

end

/-- The greatest signed integer is bound, the next integer is refused, the negative zero is a
zero, the integer below the least signed one is bound as the closest number, and the integer
above the greatest word is bound as a number whose code is near that of two to the
sixty-fourth. -/
theorem literals_bound_exactly_up_to_words_limits :
    (∃ v, bindText "9223372036854775807" = .ok v ∧ v.quantity? = some 9223372036854775807) ∧
    bindText "9223372036854775808" =
      .error (.refused (.unsupportedValue (.integer 9223372036854775808))) ∧
    (∃ v, bindText "-0" = .ok v ∧ v.quantity? = some 0) ∧
    (∃ y : Binary64, bindText "-9223372036854775809" = .ok (.float y) ∧
      y.IsClosest (-9223372036854775809)) ∧
    (∃ y : Binary64, bindText "18446744073709551616" = .ok (.float y) ∧ y.negative = false ∧
      y.code ≤ 0x43f0000000000003 ∧ 0x43effffffffffffd ≤ y.code) ∧
    bindText "-007" = .error .malformed := by
  refine ⟨?greatest, ?next, ?zero, ?below, ?beyond, ?needless⟩
  case greatest =>
    obtain ⟨-, hplain⟩ := literals_bound_exactly_up_to_words false
      [9, 2, 2, 3, 3, 7, 2, 0, 3, 6, 8, 5, 4, 7, 7, 5, 8, 0, 7] (by decide) (by decide)
    obtain ⟨hsigned, -⟩ := hplain (.inr ⟨_, _, rfl, by decide⟩) 9223372036854775807 (by decide)
    obtain ⟨v, hbound, hvalue, -⟩ := hsigned (by decide) (by decide)
    exact ⟨v, hbound, hvalue⟩
  case next =>
    obtain ⟨-, hplain⟩ := literals_bound_exactly_up_to_words false
      [9, 2, 2, 3, 3, 7, 2, 0, 3, 6, 8, 5, 4, 7, 7, 5, 8, 0, 8] (by decide) (by decide)
    obtain ⟨-, hword, -⟩ := hplain (.inr ⟨_, _, rfl, by decide⟩) 9223372036854775808 (by decide)
    exact hword (by decide) (by decide)
  case zero =>
    obtain ⟨-, hplain⟩ := literals_bound_exactly_up_to_words true [0] (by decide) (by decide)
    obtain ⟨hsigned, -⟩ := hplain (.inl rfl) 0 (by decide)
    obtain ⟨v, hbound, hvalue, -⟩ := hsigned (by decide) (by decide)
    exact ⟨v, hbound, hvalue⟩
  case below =>
    obtain ⟨-, hplain⟩ := literals_bound_exactly_up_to_words true
      [9, 2, 2, 3, 3, 7, 2, 0, 3, 6, 8, 5, 4, 7, 7, 5, 8, 0, 9] (by decide) (by decide)
    obtain ⟨-, -, hbelow, -⟩ := hplain (.inr ⟨_, _, rfl, by decide⟩) (-9223372036854775809)
      (by decide)
    obtain ⟨y, hbound, -, hclosest⟩ := hbelow (by decide) (by decide)
    exact ⟨y, hbound, by exact_mod_cast hclosest⟩
  case beyond =>
    obtain ⟨-, hplain⟩ := literals_bound_exactly_up_to_words false
      [1, 8, 4, 4, 6, 7, 4, 4, 0, 7, 3, 7, 0, 9, 5, 5, 1, 6, 1, 6] (by decide) (by decide)
    obtain ⟨-, -, -, hbeyond⟩ := hplain (.inr ⟨_, _, rfl, by decide⟩) 18446744073709551616
      (by decide)
    obtain ⟨code, hnearest, hbound⟩ := hbeyond (by decide)
    have hclosest : (Binary.ofNat 18446744073709551616 : Binary64).code = 0x43f0000000000000 := by
      decide +kernel
    have hcode : code = 0x43f0000000000000 := hclosest ▸ hnearest.unique
      (Binary.isNearest_ofNat Format.double_fractionBits_pos 18446744073709551616)
    have hinfinity : Format.double.infinity = 0x7ff0000000000000 := by decide
    rcases hbound with ⟨-, hgreat⟩ | ⟨y, hbound, -, hsign, hbelow, habove⟩
    · omega
    · exact ⟨y, hbound, hsign, by omega, by omega⟩
  case needless =>
    obtain ⟨hneedless, -⟩ := literals_bound_exactly_up_to_words true [0, 0, 7] (by decide)
      (by decide)
    exact hneedless (by simp [Json.IsPlain])

/-- The integer below the least signed one is not refused, and it is bound as another number. -/
theorem literal_below_signed_range_replaced :
    ∃ v, bindText "-9223372036854775809" = .ok v ∧ v.quantity? = some (-9223372036854775808) :=
  ⟨.float (Binary.ofBits 0xc3e0000000000000), by decide +kernel, by decide +kernel⟩

end Value

end SqlFragments
