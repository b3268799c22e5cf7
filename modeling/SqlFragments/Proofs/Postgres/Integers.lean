import SqlFragments.Proofs.Number.Shortest
import SqlFragments.Proofs.Postgres.Texts

/-!
# Integers as parameters

An integer is sent in one of two ways: as two's complement in an integer type of two, four
or eight bytes, or as decimal text in a type that holds text.  Bytes are read back here by
definitions of their own, big-endian words and rows of ASCII digits, so that what is read
back is a statement about the bytes.

Main results:

- `readUnsigned_bigEndian`: the bytes of a number are read back up to their width.
- `readSigned_twosComplement`: an integer in the range of its type is read back.
- `toUTF8_ofList_ascii`: text of ASCII characters has one byte for each of them.
- `IsDecimal.readDecimal`: the decimal of an integer is read back.
- `integers_keep_their_value`: what is sent for an integer, for every type.
-/

namespace SqlFragments.Postgres

open Number

attribute [local instance (high)] instPowNat

/-! ## Words -/

/-- The natural number of a word, the most significant byte first. -/
def readUnsigned (bytes : List UInt8) : ℕ := bytes.foldl (fun n byte => 256 * n + byte.toNat) 0

/-- The integer of a word in two's complement: the upper half of the words stands for the
negative integers. -/
def readSigned (bytes : List UInt8) : ℤ :=
  if 2 * readUnsigned bytes < 256 ^ bytes.length then readUnsigned bytes
  else readUnsigned bytes - (256 ^ bytes.length : ℕ)

@[simp]
theorem readUnsigned_append_singleton (bytes : List UInt8) (byte : UInt8) :
    readUnsigned (bytes ++ [byte]) = 256 * readUnsigned bytes + byte.toNat := by
  simp [readUnsigned]

/-- The bytes of a number are read back up to their width. -/
theorem readUnsigned_bigEndian (width n : ℕ) :
    readUnsigned (bigEndian width n) = n % 256 ^ width := by
  induction width generalizing n with
  | zero => simp [bigEndian, readUnsigned, Nat.mod_one]
  | succ width ih =>
    have hbyte : (UInt8.ofNat n).toNat = n % 256 := rfl
    rw [bigEndian, readUnsigned_append_singleton, ih, hbyte, Nat.pow_succ', Nat.mod_mul,
      Nat.add_comm]

/-- An integer in the range of its width is read back. -/
theorem readSigned_twosComplement {width : ℕ} (hwidth : 0 < width) {i : ℤ}
    (hlow : -2 ^ (8 * width - 1) ≤ i) (hhigh : i < 2 ^ (8 * width - 1)) :
    readSigned (twosComplement width i) = i := by
  have hwords : (256 : ℕ) ^ width = 2 * 2 ^ (8 * width - 1) := by
    rw [← Nat.pow_succ', show (8 * width - 1).succ = 8 * width by omega, Nat.pow_mul]
  have hmodulus : (2 : ℤ) ^ (8 * width) = ((2 * 2 ^ (8 * width - 1) : ℕ) : ℤ) := by
    rw [← hwords, Nat.cast_pow, Int.pow_mul]
    rfl
  have hlength : (twosComplement width i).length = width := length_bigEndian _ _
  have hcast : (2 : ℤ) ^ (8 * width - 1) = ((2 ^ (8 * width - 1) : ℕ) : ℤ) := by
    rw [Nat.cast_pow]
    rfl
  have hpos : 0 < 2 ^ (8 * width - 1) := Nat.two_pow_pos _
  rw [hcast] at hlow hhigh
  rw [readSigned, hlength, twosComplement, readUnsigned_bigEndian, hwords, hmodulus]
  generalize 2 ^ (8 * width - 1) = half at *
  -- The word of a negative integer is that of the integer in the next period.
  have hword : i % ((2 * half : ℕ) : ℤ) = if i < 0 then i + (2 * half : ℕ) else i := by
    split
    · rw [← Int.add_emod_right, Int.emod_eq_of_lt (by omega) (by omega)]
    · rw [Int.emod_eq_of_lt (by omega) (by omega)]
  rw [hword]
  split
  · rw [Nat.mod_eq_of_lt (by omega)]
    split <;> omega
  · rw [Nat.mod_eq_of_lt (by omega)]
    split <;> omega

/-! ## Decimal text -/

/-- Text of ASCII characters has one byte for each of them. -/
theorem toUTF8_ofList_ascii {text : List Char} (h : ∀ c ∈ text, c.toNat < 128) :
    (String.ofList text).toUTF8.toList = text.map Char.toUInt8 := by
  have hbytes : (String.ofList text).toUTF8 = (text.map Char.toUInt8).toByteArray := by
    rw [String.toUTF8_eq_toByteArray, String.toByteArray_ofList]
    induction text with
    | nil => rfl
    | cons c rest ih =>
      have hsize : c.utf8Size = 1 := by
        rw [Char.utf8Size_eq_one_iff, UInt32.le_iff_toNat_le]
        exact Nat.le_of_lt_succ (h c List.mem_cons_self)
      rw [List.utf8Encode_cons, List.utf8Encode_singleton, String.utf8EncodeChar_eq_singleton hsize,
        ih fun d hd => h d (List.mem_cons_of_mem _ hd), ← List.toByteArray_append]
      rfl
  rw [hbytes, toList_eq_data, List.toList_data_toByteArray]

/-- The integer of ASCII text: digits, at least one, after a sign if there is one. -/
def readDecimal (bytes : List UInt8) : Option ℤ :=
  let (negative, text) := readSign (bytes.map fun byte => Char.ofNat byte.toNat)
  match readDigits text with
  | (d :: row, []) => some (if negative then -ofDigits (d :: row) else ofDigits (d :: row))
  | _ => none

/-- The canonical decimal of an integer in ASCII: a minus sign exactly for a negative integer,
then the digits of the magnitude, the first of them zero only if it is the only one. -/
def IsDecimal (i : ℤ) (bytes : List UInt8) : Prop :=
  ∃ row : List ℕ,
    bytes = (if i < 0 then [45] else []) ++ row.map (fun d => UInt8.ofNat (48 + d)) ∧
    (∀ d ∈ row, d < 10) ∧ (row = [0] ∨ ∃ first rest, row = first :: rest ∧ first ≠ 0) ∧
    ofDigits row = i.natAbs

/-- The digits of a number have no needless zero. -/
theorem leading_digits (n : ℕ) :
    digits n = [0] ∨ ∃ first rest, digits n = first :: rest ∧ first ≠ 0 := by
  rcases Nat.eq_zero_or_pos n with rfl | hpos
  · left
    rw [digits, if_pos (by decide)]
  · exact .inr (exists_digits_cons hpos)

/-- A digit is one ASCII character, and its byte. -/
theorem toUInt8_digitChar {d : ℕ} (h : d < 10) :
    (digitChar d).toNat < 128 ∧ (digitChar d).toUInt8 = UInt8.ofNat (48 + d) ∧
      Char.ofNat (UInt8.ofNat (48 + d)).toNat = digitChar d := by
  have hall : ∀ d : Fin 10, (digitChar d).toNat < 128 ∧
      (digitChar d).toUInt8 = UInt8.ofNat (48 + d) ∧
      Char.ofNat (UInt8.ofNat (48 + d)).toNat = digitChar d := by decide
  exact hall ⟨d, h⟩

/-- The text form of an integer is its canonical decimal. -/
theorem isDecimal_writeInt (i : Int64) :
    IsDecimal i.toInt (Value.writeInt i).toUTF8.toList := by
  have hdigits : ∀ d ∈ digits i.toInt.natAbs, d < 10 := fun d => lt_ten_of_mem_digits
  have hascii : ∀ c ∈ decimalInt i.toInt, c.toNat < 128 := by
    intro c hc
    have hrow : ∀ c ∈ decimal i.toInt.natAbs, c.toNat < 128 := by
      intro c hc
      obtain ⟨d, hd, rfl⟩ := List.mem_map.mp hc
      exact (toUInt8_digitChar (hdigits d hd)).1
    unfold decimalInt at hc
    split at hc
    · rcases List.mem_cons.mp hc with rfl | hc
      · decide
      · exact hrow c hc
    · exact hrow c hc
  refine ⟨digits i.toInt.natAbs, ?_, hdigits, leading_digits _, ofDigits_digits _⟩
  have hmap : (decimal i.toInt.natAbs).map Char.toUInt8 =
      (digits i.toInt.natAbs).map fun d => UInt8.ofNat (48 + d) := by
    rw [decimal, writeDigits, List.map_map]
    exact List.map_congr_left fun d hd => (toUInt8_digitChar (hdigits d hd)).2.1
  rw [Value.writeInt, toUTF8_ofList_ascii hascii, decimalInt]
  split
  · rw [List.map_cons, hmap]
    rfl
  · rw [hmap]
    rfl

/-- Digits have no sign in front. -/
theorem readSign_writeDigits {row : List ℕ} (h : ∀ d ∈ row, d < 10) :
    readSign (writeDigits row) = (false, writeDigits row) := by
  cases row with
  | nil => rfl
  | cons d rest =>
    have hsigns : ∀ d : Fin 10, digitChar d ≠ '-' ∧ digitChar d ≠ '+' := by decide
    obtain ⟨hminus, hplus⟩ := hsigns ⟨d, h d List.mem_cons_self⟩
    rw [writeDigits, List.map_cons, readSign]
    · exact fun rest heq => hminus (List.cons.inj heq).1
    · exact fun rest heq => hplus (List.cons.inj heq).1

/-- The canonical decimal of an integer is read back. -/
theorem IsDecimal.readDecimal {i : ℤ} {bytes : List UInt8} (h : IsDecimal i bytes) :
    readDecimal bytes = some i := by
  obtain ⟨row, rfl, hdigits, hleading, hvalue⟩ := h
  have htext : (row.map fun d => UInt8.ofNat (48 + d)).map (fun byte => Char.ofNat byte.toNat) =
      writeDigits row := by
    rw [List.map_map, writeDigits]
    exact List.map_congr_left fun d hd => (toUInt8_digitChar (hdigits d hd)).2.2
  have hread : readDigits (writeDigits row) = (row, []) := by
    have h : readDigits (writeDigits row ++ []) = (row, []) :=
      readDigits_writeDigits hdigits (by simp)
    rwa [List.append_nil] at h
  obtain ⟨first, rest, rfl⟩ : ∃ first rest, row = first :: rest := by
    rcases hleading with rfl | ⟨first, rest, rfl, -⟩
    · exact ⟨0, [], rfl⟩
    · exact ⟨first, rest, rfl⟩
  have hsign : readSign ((if i < 0 then [45] else []).map (fun byte : UInt8 =>
      Char.ofNat byte.toNat) ++ writeDigits (first :: rest)) =
      (decide (i < 0), writeDigits (first :: rest)) := by
    by_cases hnegative : i < 0
    · rw [if_pos hnegative, decide_eq_true hnegative]
      rfl
    · rw [if_neg hnegative, decide_eq_false hnegative]
      exact readSign_writeDigits hdigits
  rw [Postgres.readDecimal, List.map_append, htext, hsign]
  simp only [hread, hvalue, decide_eq_true_eq, Option.some.injEq]
  split <;> omega

/-! ## What is sent for an integer -/

/-- The integer types, with their widths in bytes. -/
def integerTypes : List (String × ℕ) := [("int2", 2), ("int4", 4), ("int8", 8)]

/-- The integer types and their widths. -/
theorem mem_integerTypes {name : String} {width : ℕ} : (name, width) ∈ integerTypes ↔
    name = "int2" ∧ width = 2 ∨ name = "int4" ∧ width = 4 ∨ name = "int8" ∧ width = 8 := by
  simp [integerTypes]

/-- An integer is sent to an integer type in the number of its bytes. -/
theorem encode_int {name : String} {width : ℕ} (h : (name, width) ∈ integerTypes) (i : Int64) :
    encode (.int i) (.builtin name) = (encodeInt width i.toInt).map some := by
  rcases mem_integerTypes.mp h with ⟨rfl, rfl⟩ | ⟨rfl, rfl⟩ | ⟨rfl, rfl⟩ <;> rfl

/-- An integer has at least one byte. -/
theorem width_pos {name : String} {width : ℕ} (h : (name, width) ∈ integerTypes) : 0 < width := by
  rcases mem_integerTypes.mp h with ⟨-, rfl⟩ | ⟨-, rfl⟩ | ⟨-, rfl⟩ <;> decide

/-- Whether an integer is in the range of a number of bytes. -/
def InRange (width : ℕ) (i : ℤ) : Prop := -2 ^ (8 * width - 1) ≤ i ∧ i < 2 ^ (8 * width - 1)

instance (width : ℕ) (i : ℤ) : Decidable (InRange width i) := inferInstanceAs (Decidable (_ ∧ _))

/-- An integer in the range is sent as the word that stands for it. -/
theorem encodeInt_of_inRange {width : ℕ} {i : ℤ} (h : InRange width i) :
    encodeInt width i = .ok (twosComplement width i) := by
  rw [encodeInt, if_neg (not_le.mpr h.2), if_neg (not_lt.mpr h.1)]

/-- An integer outside the range fails on the side on which it is. -/
theorem encodeInt_of_not_inRange {width : ℕ} {i : ℤ} (h : ¬InRange width i) :
    encodeInt width i = .error (if i < 0 then .tooSmall else .tooLarge) := by
  have hpos : (0 : ℤ) < 2 ^ (8 * width - 1) := Int.pow_pos (by decide)
  unfold InRange at h
  unfold encodeInt
  split
  · rw [if_neg (by omega)]
  · rw [if_pos (by omega), if_pos (by omega)]

/-- The bytes that are sent to an integer type or to a text type tell integers apart. -/
theorem eq_of_encode_int {t : ColumnType} {i j : Int64} {bytes : List UInt8}
    (ht : t.IsTextLike ∨ ∃ name width, (name, width) ∈ integerTypes ∧ t = .builtin name)
    (hi : encode (.int i) t = .ok (some bytes)) (hj : encode (.int j) t = .ok (some bytes)) :
    i = j := by
  apply Int64.toInt_inj.mp
  rcases ht with htext | ⟨name, width, hmem, rfl⟩
  · rw [encode_of_isTextLike rfl htext] at hi hj
    have hsame := (Except.ok.inj hi).trans (Except.ok.inj hj).symm
    have htexts : (Value.writeInt i).toUTF8.toList = (Value.writeInt j).toUTF8.toList :=
      List.append_cancel_left (Option.some.inj hsame)
    have hread := (isDecimal_writeInt i).readDecimal
    rw [htexts, (isDecimal_writeInt j).readDecimal] at hread
    exact (Option.some.inj hread).symm
  · have hword : ∀ {i : Int64}, encode (.int i) (.builtin name) = .ok (some bytes) →
        readSigned bytes = i.toInt := by
      intro i h
      rw [encode_int hmem] at h
      by_cases hrange : InRange width i.toInt
      · rw [encodeInt_of_inRange hrange] at h
        rw [← Option.some.inj (Except.ok.inj h)]
        exact readSigned_twosComplement (width_pos hmem) hrange.1 hrange.2
      · rw [encodeInt_of_not_inRange hrange] at h
        cases h
    rw [← hword hi, hword hj]

/-- No integer is changed on its way.  An integer type takes exactly the integers in its range,
each as the word of its width that reads back as the integer, and refuses any other as too
large or too small.  A text type takes every integer as its canonical decimal, which reads
back as the integer, and only three types have one byte before it.  The type of truth values
and every type that is not accepted are mismatches.  Two integers never have the same bytes
in an integer type or a text type. -/
theorem integers_keep_their_value (i : Int64) :
    (∀ name width, (name, width) ∈ integerTypes →
      ((∃ sent, encode (.int i) (.builtin name) = .ok sent) ↔ InRange width i.toInt) ∧
      (∀ sent, encode (.int i) (.builtin name) = .ok sent →
        ∃ bytes, sent = some bytes ∧ bytes.length = width ∧ readSigned bytes = i.toInt) ∧
      (¬InRange width i.toInt → encode (.int i) (.builtin name) =
        .error (if i.toInt < 0 then .tooSmall else .tooLarge))) ∧
    (∀ t : ColumnType, t.IsTextLike →
      ∃ bytes, encode (.int i) t = .ok (some (versionBytes t ++ bytes)) ∧
        IsDecimal i.toInt bytes ∧ readDecimal bytes = some i.toInt) ∧
    (∀ t : ColumnType, t = .builtin "bool" ∨ t.isAccepted = false →
      encode (.int i) t = .error (.mismatch "int" t)) ∧
    ∀ (j : Int64) (t : ColumnType) (bytes : List UInt8),
      (t.IsTextLike ∨ ∃ name width, (name, width) ∈ integerTypes ∧ t = .builtin name) →
      encode (.int i) t = .ok (some bytes) → encode (.int j) t = .ok (some bytes) → i = j := by
  refine ⟨?words, ?text, ?mismatch, ?distinct⟩
  case words =>
    intro name width hmem
    rw [encode_int hmem]
    by_cases hrange : InRange width i.toInt
    · have hsigned := readSigned_twosComplement (width_pos hmem) hrange.1 hrange.2
      rw [encodeInt_of_inRange hrange]
      refine ⟨iff_of_true ⟨_, rfl⟩ hrange, ?_, fun h => absurd hrange h⟩
      intro sent h
      exact ⟨_, (Except.ok.inj h).symm, length_bigEndian _ _, hsigned⟩
    · rw [encodeInt_of_not_inRange hrange]
      exact ⟨iff_of_false (fun ⟨_, h⟩ => nomatch h) hrange, fun sent h => (nomatch h),
        fun _ => rfl⟩
  case text =>
    intro t ht
    have hdecimal := isDecimal_writeInt i
    exact ⟨_, encode_of_isTextLike rfl ht, hdecimal, hdecimal.readDecimal⟩
  case mismatch =>
    rintro t (rfl | ht)
    · rfl
    · exact encode_of_not_isAccepted ht (.int i)
  case distinct =>
    intro j t bytes ht hi hj
    exact eq_of_encode_int ht hi hj

/-- The least integer: too small for four bytes, a word of eight, text after a version byte,
and a mismatch in a type that is not accepted. -/
theorem integers_keep_their_value_least :
    let least : Int64 := Int64.minValue
    encode (.int least) (.builtin "int4") = .error .tooSmall ∧
      (∃ bytes, encode (.int least) (.builtin "int8") = .ok (some bytes) ∧ bytes.length = 8 ∧
        readSigned bytes = -9223372036854775808) ∧
      (∃ bytes, encode (.int least) (.custom "app" "ltree") = .ok (some (1 :: bytes)) ∧
        readDecimal bytes = some (-9223372036854775808)) ∧
      encode (.int least) (.builtin "json") = .error (.mismatch "int" (.builtin "json")) ∧
      ∀ j : Int64, encode (.int j) (.builtin "int8") = encode (.int least) (.builtin "int8") →
        least = j := by
  intro least
  obtain ⟨hwords, htext, hmismatch, hdistinct⟩ := integers_keep_their_value least
  obtain ⟨-, -, hfails⟩ := hwords "int4" 4 (by decide)
  obtain ⟨hsent, hword, -⟩ := hwords "int8" 8 (by decide)
  obtain ⟨sent, hlong⟩ := hsent.mpr (by decide)
  obtain ⟨bytes, rfl, hlength, hsigned⟩ := hword sent hlong
  obtain ⟨decimal, hdecimal, -, hread⟩ := htext (.custom "app" "ltree") (.inr (by decide))
  refine ⟨hfails (by decide), ⟨bytes, hlong, hlength, hsigned⟩, ⟨decimal, hdecimal, hread⟩,
    hmismatch (.builtin "json") (.inr (by decide)), ?_⟩
  intro j hj
  exact hdistinct j (.builtin "int8") bytes (.inr ⟨"int8", 8, by decide, rfl⟩) hlong
    (hj.trans hlong)

end SqlFragments.Postgres
