/-!
# Ranges of code points

A property of characters is given by the ranges of the code points that have it.

Main results:

- `inRanges_iff`: a character is in ranges when one of them holds its code point.
-/

namespace SqlFragments.Text

/-- Whether one of the ranges, both ends included, holds the code point of a character. -/
def inRanges (ranges : List (Nat × Nat)) (c : Char) : Bool :=
  ranges.any fun range => range.1 ≤ c.toNat && c.toNat ≤ range.2

theorem inRanges_iff {ranges : List (Nat × Nat)} {c : Char} :
    inRanges ranges c = true ↔ ∃ range ∈ ranges, range.1 ≤ c.toNat ∧ c.toNat ≤ range.2 := by
  simp [inRanges]

end SqlFragments.Text
