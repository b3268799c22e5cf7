import SqlFragments.Proofs.Number.Conversion
import SqlFragments.Proofs.Postgres.Rounding

/-!
# Numbers in single precision

A number of single precision is held in double precision, which has it exactly, and is sent
to a single-precision type as it was.  Any other number is rounded when it is sent: to the
closest number, or to an infinity if it is beyond the greatest one by half a step or more.
The sign is always kept.

Main results:

- `encode_ofSingle`: a number of single precision is sent as it was.
- `singles_survive_doubles_rounded`: what is sent for a number of either precision.
-/

namespace SqlFragments.Postgres

open Number

attribute [local instance (high)] instPowNat

/-- A number of single precision is sent as it was. -/
theorem encode_ofSingle {x : Binary32} (hx : x.isNaN = false) :
    encode (.ofSingle x) (.builtin "float4") = .ok (some (singleBytes x)) := by
  have hback : (x.convert .double).convert .single = x :=
    Binary.convert_convert Format.single_extends_double (by decide) (by decide) hx
  change Except.ok (some (singleBytes ((x.convert .double).convert .single))) = _
  rw [hback]

/-- A single is sent in four bytes, which are its bits. -/
theorem readUnsigned_singleBytes (x : Binary32) :
    (singleBytes x).length = 4 ∧ readUnsigned (singleBytes x) = x.toBits := by
  have hmem : ("float4", Format.single, 4) ∈ floatTypes := by decide
  exact ⟨length_bigEndian _ _, readUnsigned_toBits hmem x⟩

/-- The middle between the greatest number of single precision and the next power of two. -/
theorem middle_single_infinity :
    Format.single.middle (Format.single.infinity - 1) / Format.single.one =
      2 ^ 128 - 2 ^ 103 := by
  have hsum : Format.single.units (Format.single.infinity - 1) +
      Format.single.units (Format.single.infinity - 1 + 1) + 2 * 2 ^ 103 * Format.single.one =
        2 * 2 ^ 128 * Format.single.one := by decide +kernel
  have hone := Format.single.one_pos
  unfold Format.middle
  generalize Format.single.units (Format.single.infinity - 1) = below at hsum ⊢
  generalize Format.single.units (Format.single.infinity - 1 + 1) = above at hsum ⊢
  generalize Format.single.one = one at hsum hone ⊢
  have hsumq : (below + above + 2 * 2 ^ 103 * one : ℚ) = 2 * 2 ^ 128 * one := by
    exact_mod_cast hsum
  rw [div_eq_iff hone.ne']
  linarith

/-- Numbers of single precision survive being held as values, and numbers of double precision
are rounded to single precision once.  A number of single precision, infinities and both
zeros included, is sent to a single-precision type as its own bits.  A number of double
precision is sent there as the bits of a number with its sign: of an infinity, if it is one
or if its magnitude is at least the middle between the greatest number of single precision
and the next power of two; and otherwise of the number of single precision closest to it,
of two as close the one with the even significand.  All closest numbers have this value. -/
theorem singles_survive_doubles_rounded :
    (∀ x : Binary32, x.isNaN = false →
      ∃ bytes : List UInt8, encode (.ofSingle x) (.builtin "float4") = .ok (some bytes) ∧
        bytes.length = 4 ∧ readUnsigned bytes = x.toBits) ∧
    ∀ x : Binary64, x.isNaN = false →
      ∃ (y : Binary32) (bytes : List UInt8),
        encode (.float x) (.builtin "float4") = .ok (some bytes) ∧
        bytes.length = 4 ∧ readUnsigned bytes = y.toBits ∧
        y.isNaN = false ∧ y.negative = x.negative ∧
        (x.isInfinite = true → y.isInfinite = true) ∧
        (x.isFinite = true → 2 ^ 128 - 2 ^ 103 ≤ |x.value| → y.isInfinite = true) ∧
        (x.isFinite = true → |x.value| < 2 ^ 128 - 2 ^ 103 →
          y.IsClosest x.value ∧ ∀ z : Binary32, z.IsClosest x.value → z.value = y.value) := by
  have hexponent : 0 < Format.single.exponentBits := by decide
  have hfraction : 0 < Format.single.fractionBits := by decide
  refine ⟨?single, ?double⟩
  case single =>
    intro x hx
    exact ⟨_, encode_ofSingle hx, readUnsigned_singleBytes x⟩
  case double =>
    intro x hx
    obtain ⟨hlength, hbits⟩ := readUnsigned_singleBytes (x.convert .single)
    refine ⟨x.convert .single, _, rfl, hlength, hbits, ?number, Binary.negative_convert x _,
      ?infinite, ?overflow, ?closest⟩
    case number =>
      rcases Binary.isFinite_or_isInfinite hx with hfinite | hinfinite
      · exact decide_eq_false (Binary.isNearest_convert hfraction hfinite).le_infinity.not_gt
      · rw [Binary.convert_of_isInfinite hinfinite]
        exact decide_eq_false (lt_irrefl _)
    case infinite =>
      intro hinfinite
      rw [Binary.convert_of_isInfinite (beq_iff_eq.mp hinfinite)]
      exact beq_self_eq_true _
    case overflow =>
      intro hfinite hle
      rwa [Binary.isInfinite_convert_iff hexponent hfraction hfinite, middle_single_infinity]
    case closest =>
      intro hfinite hlt
      exact Binary.isClosest_convert hexponent hfraction hfinite (middle_single_infinity ▸ hlt)

/-- The least number of single precision is sent as it was.  The middle below an infinity is
sent as that infinity, and the least number of double precision as a zero, both with their
signs. -/
theorem singles_survive_doubles_rounded_limits :
    (∃ bytes, encode (.ofSingle (Binary.ofBits 1)) (.builtin "float4") = .ok (some bytes) ∧
      readUnsigned bytes = 1) ∧
    (∃ bytes, encode (.float (Binary.ofBits 0xc7effffff0000000)) (.builtin "float4") =
      .ok (some bytes) ∧ readUnsigned bytes = 0xff800000) ∧
    ∃ (y : Binary32) (bytes : List UInt8),
      encode (.float (Binary.ofBits 0x8000000000000001)) (.builtin "float4") = .ok (some bytes) ∧
        readUnsigned bytes = y.toBits ∧ y.negative = true ∧
        y.IsClosest (Binary.ofBits 0x8000000000000001 : Binary64).value := by
  obtain ⟨hsingles, hdoubles⟩ := singles_survive_doubles_rounded
  refine ⟨?least, ?middle, ?underflow⟩
  case least =>
    obtain ⟨bytes, hsent, -, hbits⟩ := hsingles (Binary.ofBits 1) (by decide +kernel)
    exact ⟨bytes, hsent, hbits.trans (by decide +kernel)⟩
  case middle =>
    obtain ⟨y, bytes, hsent, -, hbits, -, hsign, -, hoverflow, -⟩ :=
      hdoubles (Binary.ofBits 0xc7effffff0000000) (by decide +kernel)
    have hinfinite : y.code = Format.single.infinity :=
      beq_iff_eq.mp (hoverflow (by decide +kernel) (by decide +kernel))
    refine ⟨bytes, hsent, ?_⟩
    rw [hbits, Binary.toBits, hsign, hinfinite]
    decide +kernel
  case underflow =>
    obtain ⟨y, bytes, hsent, -, hbits, -, hsign, -, -, hclosest⟩ :=
      hdoubles (Binary.ofBits 0x8000000000000001) (by decide +kernel)
    have hnear := hclosest (by decide +kernel) (by decide +kernel)
    exact ⟨y, bytes, hsent, hbits, hsign.trans (by decide +kernel), hnear.1⟩

end SqlFragments.Postgres
