import SqlFragments.Proofs.Json.Scalars

/-!
# Binding and decoding agree

A text is bound through its document, case by case over the kinds of numbers, and it is
decoded without a tag, as the first kind of value that fits.  The two differ for one kind
of text alone: a natural number in decimal that is above the 64-bit signed range and still
fits a word.  There binding refuses the number and decoding rounds it.

Main results:

- `Value.bindJson_eq_ok_iff`: which documents are bound.
- `Value.exists_isWide_iff`: the texts of the documents on which the two differ.
- `Value.readings_agree`: the same values, except for numbers between the two bounds.
-/

namespace SqlFragments.Value

open Number

attribute [local instance (high)] instPowNat

/-! ## Documents -/

/-- A document that stands for a natural number above the 64-bit signed range. -/
def IsWide (document : Json) (n : ℕ) : Prop :=
  ∃ m, document = .number m ∧ m.read = some (.integer n) ∧ 2 ^ (63 : ℕ) ≤ n

section

variable {document : Json}

theorem ofInt_of_le {n : ℕ} (h : 2 ^ (63 : ℕ) ≤ n) : ofInt n = none := by
  rw [ofInt, if_neg (by omega)]

/-- A number above the signed range is refused by its digits. -/
theorem IsWide.bindJson_eq {n : ℕ} (h : IsWide document n) :
    bindJson document = .error (.refused (.unsupportedValue (.integer n))) := by
  obtain ⟨m, rfl, hread, hlow⟩ := h
  simp [bindJson, bindNumeral, hread, ofInt_of_le hlow]

/-- A number above the signed range is decoded as the double-precision number nearest to it. -/
theorem IsWide.decodeJson_eq {n : ℕ} (h : IsWide document n) :
    decodeJson document = some (.float (Binary.ofNat n)) := by
  obtain ⟨m, rfl, hread, hlow⟩ := h
  have hsign : decide ((n : ℤ) < 0) = false := decide_eq_false (by omega)
  have hfloat : (Binary.ofInt n : Binary64) = Binary.ofNat n := by
    rw [Binary.ofInt, hsign, Int.natAbs_natCast, Binary.ofNat]
  simp [decodeNumeral, hread, ofInt_of_le hlow, hfloat]

/-- An array or an object is refused by both. -/
theorem refused_of_not_isScalar (h : document.isScalar = false) :
    decodeJson document = none ∧
      ∃ cause ∈ [Unsupported.array, Unsupported.object],
        bindJson document = .error (.refused (.unsupportedValue cause)) := by
  cases document with
  | array elements => exact ⟨rfl, .array, by decide, rfl⟩
  | object members => exact ⟨rfl, .object, by decide, rfl⟩
  | _ => cases h

/-- What is decoded and is no number above the signed range is bound as the same value. -/
theorem bindJson_of_decodeJson {v : Value} (h : decodeJson document = some v)
    (hwide : ¬∃ n, IsWide document n) : bindJson document = .ok v := by
  cases document with
  | null => cases h; rfl
  | bool b => cases h; rfl
  | string units =>
    rw [decodeJson_string] at h
    obtain ⟨s, hs, rfl⟩ := Option.map_eq_some_iff.1 h
    rw [bindJson, hs]
    rfl
  | number m =>
    rw [decodeJson_number] at h
    obtain ⟨reading, hread, hv⟩ := Option.map_eq_some_iff.1 h
    cases reading with
    | float x =>
      subst hv
      simp [bindJson, bindNumeral, hread]
    | integer i =>
      obtain ⟨-, -, hlow, -⟩ := Json.Numeral.read_integer hread
      have hhigh : i < 2 ^ (63 : ℕ) := by
        by_contra hle
        refine hwide ⟨i.toNat, m, rfl, ?_, by omega⟩
        rw [hread, Int.toNat_of_nonneg (by omega)]
      have hint : ofInt i = some (.int (Int64.ofInt i)) := if_pos ⟨hlow, hhigh⟩
      simp only [hint, Option.getD_some] at hv
      simp [bindJson, bindNumeral, hread, hint, hv]
  | array elements => cases h
  | object members => cases h

/-- What is bound is decoded as the same value. -/
theorem decodeJson_of_bindJson {v : Value} (h : bindJson document = .ok v) :
    decodeJson document = some v := by
  cases document with
  | null => cases h; rfl
  | bool b => cases h; rfl
  | string units =>
    simp only [bindJson] at h
    cases hs : Json.text? units with
    | none => simp [hs] at h
    | some s => simpa [hs] using h
  | number m =>
    simp only [bindJson] at h
    split at h
    · cases h
    · rename_i w hbind
      cases h
      rw [decodeJson_number, decodeNumeral_of_bind hbind]
    · cases h
  | array elements => cases h
  | object members => cases h

/-- A document is bound exactly as it is decoded, unless it stands for a number above the
signed range. -/
theorem bindJson_eq_ok_iff {v : Value} :
    bindJson document = .ok v ↔ decodeJson document = some v ∧ ¬∃ n, IsWide document n := by
  constructor
  · intro h
    refine ⟨decodeJson_of_bindJson h, ?_⟩
    rintro ⟨n, hwide⟩
    rw [hwide.bindJson_eq] at h
    cases h
  · rintro ⟨h, hwide⟩
    exact bindJson_of_decodeJson h hwide

end

/-! ## Texts -/

/-- A text that is a natural number in decimal, above the 64-bit signed range but not above
the greatest word. -/
def SpellsWide (text : String) (n : ℕ) : Prop :=
  Json.Spells text n ∧ 2 ^ (63 : ℕ) ≤ n ∧ n < 2 ^ (64 : ℕ)

section

variable {text : String}

/-- The texts of the documents on which binding and decoding differ. -/
theorem exists_isWide_iff {n : ℕ} :
    (∃ document, Json.parseReadable text = some document ∧ IsWide document n) ↔
      SpellsWide text n := by
  constructor
  · rintro ⟨document, hparse, m, rfl, hread, hlow⟩
    obtain ⟨hparse, -⟩ := Option.filter_eq_some_iff.1 hparse
    obtain ⟨-, -, -, hhigh⟩ := Json.Numeral.read_integer hread
    exact ⟨Json.spells_of_parse (by omega) hparse hread, hlow, by exact_mod_cast hhigh⟩
  · rintro ⟨hspells, hlow, hhigh⟩
    have hread : (Json.Numeral.ofInt n).read = some (.integer n) :=
      Json.Numeral.read_ofInt (by omega) (by exact_mod_cast hhigh)
    have hreadable : Json.isReadable (.number (.ofInt n)) = true := by
      simp [Json.isReadable, Json.isSound, hread, Json.depth]
    exact ⟨_, Option.filter_eq_some_iff.2 ⟨hspells.parse, hreadable⟩, _, rfl, hread, hlow⟩

/-- Both readings are of the one document of the text. -/
theorem readings_of_parseReadable {document : Json}
    (h : Json.parseReadable text = some document) :
    bindText text = bindJson document ∧ decodeText text = decodeJson document := by
  rw [bindText, decodeText, h]
  exact ⟨rfl, rfl⟩

/-- Without a readable document there is no reading. -/
theorem readings_of_unreadable (h : Json.parseReadable text = none) :
    bindText text = .error .malformed ∧ decodeText text = none := by
  rw [bindText, decodeText, h]
  exact ⟨rfl, rfl⟩

/-- A readable array or object is refused by its kind, and it is not decoded. -/
theorem rejected_of_not_isScalar {document : Json}
    (hparse : Json.parseReadable text = some document) (h : document.isScalar = false) :
    decodeText text = none ∧ ∃ cause ∈ [Unsupported.array, Unsupported.object],
      bindText text = .error (.refused (.unsupportedValue cause)) := by
  obtain ⟨hbind, hdecode⟩ := readings_of_parseReadable hparse
  rw [hbind, hdecode]
  exact refused_of_not_isScalar h

/-- What opens with a bracket is rejected by both, whatever follows. -/
theorem rejected_of_opens (h : Json.Opens text) :
    decodeText text = none ∧ ∃ e, bindText text = .error e := by
  cases hparse : Json.parseReadable text with
  | none =>
    obtain ⟨hbind, hdecode⟩ := readings_of_unreadable hparse
    exact ⟨hdecode, _, hbind⟩
  | some document =>
    have hscalar : document.isScalar = false :=
      (Json.opens_iff (Option.filter_eq_some_iff.1 hparse).1).1 h
    obtain ⟨hdecode, cause, -, hbind⟩ := rejected_of_not_isScalar hparse hscalar
    exact ⟨hdecode, _, hbind⟩

/-- A number between the bounds is refused and rounded. -/
theorem readings_of_spellsWide {n : ℕ} (h : SpellsWide text n) :
    bindText text = .error (.refused (.unsupportedValue (.integer n))) ∧
      decodeText text = some (.float (Binary.ofNat n)) := by
  obtain ⟨document, hparse, hwide⟩ := exists_isWide_iff.2 h
  obtain ⟨hbind, hdecode⟩ := readings_of_parseReadable hparse
  exact ⟨hbind.trans hwide.bindJson_eq, hdecode.trans hwide.decodeJson_eq⟩

/-- A text is bound exactly as it is decoded, unless it is a number between the bounds. -/
theorem bindText_eq_ok_iff {v : Value} :
    bindText text = .ok v ↔ decodeText text = some v ∧ ¬∃ n, SpellsWide text n := by
  simp only [← exists_isWide_iff]
  cases hparse : Json.parseReadable text with
  | none =>
    obtain ⟨hbind, hdecode⟩ := readings_of_unreadable hparse
    simp [hbind, hdecode]
  | some document =>
    obtain ⟨hbind, hdecode⟩ := readings_of_parseReadable hparse
    rw [hbind, hdecode, bindJson_eq_ok_iff]
    simp

end

/-- The two ways from a text to a value agree except in one range.  A text is bound as a
value exactly when it is decoded as that value and is not a natural number in decimal above
the 64-bit signed range that fits a word.  Such a number is refused by its digits and
decoded as the double-precision number nearest to it, and there is no other text that is
refused as unsupported and decoded as a double-precision number.  A readable array or object
is refused by its kind and not decoded, and whatever opens with a bracket is rejected by
both. -/
theorem readings_agree (text : String) :
    (∀ v, bindText text = .ok v ↔ decodeText text = some v ∧ ¬∃ n, SpellsWide text n) ∧
    (∀ n, SpellsWide text n →
      bindText text = .error (.refused (.unsupportedValue (.integer n))) ∧
        decodeText text = some (.float (Binary.ofNat n))) ∧
    ((∃ cause x, bindText text = .error (.refused (.unsupportedValue cause)) ∧
        decodeText text = some (.float x)) ↔
      ∃ n, SpellsWide text n) ∧
    (∀ document, Json.parseReadable text = some document → document.isScalar = false →
      decodeText text = none ∧ ∃ cause ∈ [Unsupported.array, Unsupported.object],
        bindText text = .error (.refused (.unsupportedValue cause))) ∧
    (Json.Opens text → decodeText text = none ∧ ∃ e, bindText text = .error e) := by
  refine ⟨fun v => bindText_eq_ok_iff, fun n => readings_of_spellsWide, ⟨?only, ?refused⟩,
    fun document => rejected_of_not_isScalar, rejected_of_opens⟩
  case only =>
    rintro ⟨cause, x, hbind, hdecode⟩
    by_contra hnone
    have hok : bindText text = .ok (.float x) := bindText_eq_ok_iff.2 ⟨hdecode, hnone⟩
    rw [hbind] at hok
    cases hok
  case refused =>
    rintro ⟨n, hn⟩
    obtain ⟨hbind, hdecode⟩ := readings_of_spellsWide hn
    exact ⟨_, _, hbind, hdecode⟩

/-- The least number above the signed range, between blanks, is refused and rounded; an
array of it is rejected by both. -/
theorem readings_agree_bound :
    bindText " 9223372036854775808\n" =
        .error (.refused (.unsupportedValue (.integer 9223372036854775808))) ∧
      decodeText " 9223372036854775808\n" = some (.float (Binary.ofNat 9223372036854775808)) ∧
      decodeText "[9223372036854775808]" = none := by
  obtain ⟨-, hrange, -⟩ := readings_agree " 9223372036854775808\n"
  obtain ⟨-, -, -, -, hopens⟩ := readings_agree "[9223372036854775808]"
  have hspells : Json.Spells " 9223372036854775808\n" 9223372036854775808 :=
    ⟨[' '], ['\n'], by simp [Json.isSpace], by simp [Json.isSpace], by decide +kernel⟩
  obtain ⟨hbind, hdecode⟩ := hrange 9223372036854775808 ⟨hspells, by decide, by decide⟩
  exact ⟨hbind, hdecode, (hopens ⟨[], '[', _, by simp, .inl rfl, rfl⟩).1⟩

end SqlFragments.Value
