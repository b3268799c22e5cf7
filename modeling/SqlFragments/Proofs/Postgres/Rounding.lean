import SqlFragments.Proofs.Number.Closest
import SqlFragments.Proofs.Postgres.Integers

/-!
# Numbers in floating-point types

An integer is rounded once when it is sent to a floating-point type, straight to the format of
the type.  For single precision this is not the same as rounding to double precision first:
the first rounding can move an integer onto the middle between two numbers, and the second
then decides a tie that was none.

Main results:

- `isFinite_ofInt_of_mem`: no 64-bit integer is rounded to an infinity.
- `encode_double`: what double precision takes is what has a number.
- `numbers_rounded_once`: what is sent for a number, for both types.
-/

namespace SqlFragments.Postgres

open Number

attribute [local instance (high)] instPowNat

/-! ## Integers -/

/-- The floating-point types, with their formats and their widths in bytes. -/
def floatTypes : List (String × Format × ℕ) := [("float4", .single, 4), ("float8", .double, 8)]

section

variable {name : String} {f : Format} {width : ℕ}

/-- The float types, their formats and their widths. -/
theorem mem_floatTypes : (name, f, width) ∈ floatTypes ↔
    name = "float4" ∧ f = .single ∧ width = 4 ∨ name = "float8" ∧ f = .double ∧ width = 8 := by
  simp [floatTypes]

/-- Both formats have exponent and fraction bits. -/
theorem fields_pos (h : (name, f, width) ∈ floatTypes) :
    0 < f.exponentBits ∧ 0 < f.fractionBits := by
  rcases mem_floatTypes.mp h with ⟨-, rfl, -⟩ | ⟨-, rfl, -⟩ <;> decide

/-- The bits of a number fill the bytes of its type. -/
theorem readUnsigned_toBits (h : (name, f, width) ∈ floatTypes) (x : Binary f) :
    readUnsigned (bigEndian width x.toBits) = x.toBits := by
  have hbits : 2 ^ (f.magnitudeBits + 1) = 256 ^ width := by
    rcases mem_floatTypes.mp h with ⟨-, rfl, rfl⟩ | ⟨-, rfl, rfl⟩ <;> rfl
  rw [readUnsigned_bigEndian, Nat.mod_eq_of_lt (hbits ▸ x.toBits_lt)]

/-- An integer is sent to a floating-point type as its rounding to the format of the type. -/
theorem encode_int_float (h : (name, f, width) ∈ floatTypes) (i : Int64) :
    encode (.int i) (.builtin name) =
      .ok (some (bigEndian width (Binary.ofInt i.toInt : Binary f).toBits)) := by
  rcases mem_floatTypes.mp h with ⟨rfl, rfl, rfl⟩ | ⟨rfl, rfl, rfl⟩ <;> rfl

/-- No 64-bit integer is rounded to an infinity. -/
theorem isFinite_ofInt_of_mem (h : (name, f, width) ∈ floatTypes) (i : Int64) :
    (Binary.ofInt i.toInt : Binary f).isFinite = true := by
  have hlow := i.le_toInt
  have hhigh := i.toInt_lt
  have hbound : f.nearest (2 ^ 63 * f.one) 1 < f.infinity := by
    rcases mem_floatTypes.mp h with ⟨-, rfl, -⟩ | ⟨-, rfl, -⟩ <;> decide +kernel
  exact Binary.isFinite_ofInt (fields_pos h).2 hbound (by omega)

end

/-! ## Double precision -/

/-- Double precision takes a value other than nothing exactly if the value has a number, and
is then sent that number. -/
theorem encode_double (v : Value) (hv : v.isNull = false) :
    encode v (.builtin "float8") =
      match v.float? with
      | some x => .ok (some (doubleBytes x))
      | none => .error (.mismatch v.kind (.builtin "float8")) := by
  cases v with
  | null => cases hv
  | bool b => rfl
  | int i => rfl
  | float x => rfl
  | text s => rfl

/-- A double is sent in eight bytes, which are its bits. -/
theorem readUnsigned_doubleBytes (x : Binary64) :
    (doubleBytes x).length = 8 ∧ readUnsigned (doubleBytes x) = x.toBits := by
  have hmem : ("float8", Format.double, 8) ∈ floatTypes := by decide
  exact ⟨length_bigEndian _ _, readUnsigned_toBits hmem x⟩

/-- An integer just above the middle between two numbers of single precision, and double
precision has only the middle: rounded through it, the integer loses a unit of the
significand. -/
theorem encode_ne_doubly_rounded :
    encode (.int 1152921573326323713) (.builtin "float4") ≠
      .ok (some (singleBytes
        ((Binary.ofInt (1152921573326323713 : Int64).toInt : Binary64).convert .single))) := by
  decide +kernel

/-- Numbers are rounded once.  Every integer is sent to a floating-point type as the bits of
the number of the type's format closest to it, of two as close the one with the even
significand, and the number has the sign of the integer; all closest numbers have its value.
Rounding to double precision and then to single precision gives other bytes for some integer.
Double precision takes a value other than nothing exactly if the value has a number in
double precision, and what is sent are the bits of this number. -/
theorem numbers_rounded_once :
    (∀ (i : Int64) (name : String) (f : Format) (width : ℕ), (name, f, width) ∈ floatTypes →
      ∃ (x : Binary f) (bytes : List UInt8),
        encode (.int i) (.builtin name) = .ok (some bytes) ∧
        bytes.length = width ∧ readUnsigned bytes = x.toBits ∧
        x.IsClosest i.toInt ∧ x.negative = decide (i.toInt < 0) ∧
        ∀ y : Binary f, y.IsClosest i.toInt → y.value = x.value) ∧
    (∃ i : Int64, encode (.int i) (.builtin "float4") ≠
      .ok (some (singleBytes ((Binary.ofInt i.toInt : Binary64).convert .single)))) ∧
    ∀ v : Value, v.isNull = false →
      ((∃ sent, encode v (.builtin "float8") = .ok sent) ↔ ∃ x, v.float? = some x) ∧
      ∀ x, v.float? = some x →
        ∃ bytes, encode v (.builtin "float8") = .ok (some bytes) ∧
          bytes.length = 8 ∧ readUnsigned bytes = x.toBits := by
  refine ⟨?integers, ⟨_, encode_ne_doubly_rounded⟩, ?double⟩
  case integers =>
    intro i name f width hmem
    obtain ⟨hexponent, hfraction⟩ := fields_pos hmem
    obtain ⟨hclosest, hunique⟩ :=
      Binary.isClosest_ofInt hexponent hfraction (isFinite_ofInt_of_mem hmem i)
    exact ⟨_, _, encode_int_float hmem i, length_bigEndian _ _, readUnsigned_toBits hmem _,
      hclosest, rfl, hunique⟩
  case double =>
    intro v hv
    rw [encode_double v hv]
    cases v.float? with
    | none => simp
    | some y =>
      refine ⟨iff_of_true ⟨_, rfl⟩ ⟨y, rfl⟩, ?_⟩
      rintro x ⟨⟩
      exact ⟨_, rfl, readUnsigned_doubleBytes y⟩

/-- Just above a middle between two numbers of single precision, an integer is rounded up, to
the number with an odd significand; text has no number, and an integer has one. -/
theorem numbers_rounded_once_above_middle :
    (∃ (x : Binary32) (bytes : List UInt8),
      encode (.int 1152921573326323713) (.builtin "float4") = .ok (some bytes) ∧
      readUnsigned bytes = x.toBits ∧ x.IsClosest 1152921573326323713 ∧
      x.toBits = 0x5d800001) ∧
    ¬(∃ sent, encode (.text "1") (.builtin "float8") = .ok sent) ∧
    ∃ bytes, encode (.int (-1)) (.builtin "float8") = .ok (some bytes) ∧
      readUnsigned bytes = 0xbff0000000000000 := by
  obtain ⟨hintegers, -, hdouble⟩ := numbers_rounded_once
  refine ⟨?single, ?text, ?double⟩
  case single =>
    obtain ⟨x, bytes, hsent, -, hbits, hclosest, -, -⟩ :=
      hintegers 1152921573326323713 "float4" .single 4 (by decide)
    have hvalue : (1152921573326323713 : Int64).toInt = 1152921573326323713 := by decide
    rw [hvalue] at hclosest
    have hword : encode (.int 1152921573326323713) (.builtin "float4") =
        .ok (some [0x5d, 0x80, 0x00, 0x01]) := by decide +kernel
    have hbytes := Option.some.inj (Except.ok.inj (hsent.symm.trans hword))
    refine ⟨x, bytes, hsent, hbits, by exact_mod_cast hclosest, ?_⟩
    rw [← hbits, hbytes]
    rfl
  case text =>
    rw [(hdouble (.text "1") rfl).1]
    exact fun ⟨x, h⟩ => nomatch h
  case double =>
    obtain ⟨bytes, hsent, -, hbits⟩ := (hdouble (.int (-1)) rfl).2 _ rfl
    refine ⟨bytes, hsent, hbits.trans ?_⟩
    decide +kernel

end SqlFragments.Postgres
