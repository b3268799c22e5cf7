/-!
# Hexadecimal digits

The sixteen digits are those of ASCII, with letters of either case.

Main results:

- `hexValue_lt`: a digit is less than sixteen.
-/

namespace SqlFragments.Number

/-- The value of a hexadecimal digit. -/
def hexValue (c : Char) : Option Nat :=
  if '0' ≤ c ∧ c ≤ '9' then some (c.toNat - '0'.toNat)
  else if 'a' ≤ c ∧ c ≤ 'f' then some (c.toNat - 'a'.toNat + 10)
  else if 'A' ≤ c ∧ c ≤ 'F' then some (c.toNat - 'A'.toNat + 10)
  else none

/-- A digit is less than sixteen. -/
theorem hexValue_lt {c : Char} {d : Nat} (h : hexValue c = some d) : d < 16 := by
  have hle : ∀ top : Char, c ≤ top → c.toNat ≤ top.toNat := fun _ hc => hc
  unfold hexValue at h
  split at h
  case isTrue hrange =>
    have : c.toNat ≤ 57 := hle '9' hrange.2
    cases h
    change c.toNat - 48 < 16
    omega
  case isFalse =>
    split at h
    case isTrue hrange =>
      have : c.toNat ≤ 102 := hle 'f' hrange.2
      cases h
      change c.toNat - 97 + 10 < 16
      omega
    case isFalse =>
      split at h
      case isTrue hrange =>
        have : c.toNat ≤ 70 := hle 'F' hrange.2
        cases h
        change c.toNat - 65 + 10 < 16
        omega
      case isFalse => simp at h

/-- The number that a row of hexadecimal digits stands for. -/
def hexNumber (row : List Char) : Option Nat :=
  row.foldlM (fun n c => (hexValue c).map (16 * n + ·)) 0

end SqlFragments.Number
