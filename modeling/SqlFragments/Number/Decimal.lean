/-!
# Decimal digits

The decimal writing of natural numbers and integers, as digits and as text, and
the number that a row of digits stands for.

Main results:

- `ofDigits_digits`: the digits of a number stand for that number.
- `lt_ten_of_mem_digits`: every digit is less than ten.
- `digitValue_digitChar`: a written digit has its value.
- `ofList_decimal` and `decimal_inj`: a number is written as the core library writes it, and
  different numbers are written differently.
-/

namespace SqlFragments.Number

/-! ## Digits -/

/-- The decimal digits of a natural number, the most significant first; zero has
the one digit zero. -/
def digits (n : Nat) : List Nat :=
  if n < 10 then [n] else digits (n / 10) ++ [n % 10]
termination_by n
decreasing_by omega

/-- The number that a row of decimal digits stands for. -/
def ofDigits (row : List Nat) : Nat :=
  row.foldl (fun n d => 10 * n + d) 0

@[simp]
theorem ofDigits_append_singleton (row : List Nat) (d : Nat) :
    ofDigits (row ++ [d]) = 10 * ofDigits row + d := by
  simp [ofDigits]

/-- The digits of a number stand for it. -/
@[simp]
theorem ofDigits_digits (n : Nat) : ofDigits (digits n) = n := by
  fun_induction digits n with
  | case1 n h => simp [ofDigits]
  | case2 n h ih =>
    rw [ofDigits_append_singleton, ih]
    omega

/-- Every digit is below ten. -/
theorem lt_ten_of_mem_digits {n d : Nat} (h : d ∈ digits n) : d < 10 := by
  fun_induction digits n with
  | case1 n hn => simp_all
  | case2 n hn ih =>
    rcases List.mem_append.mp h with h | h
    · exact ih h
    · rw [List.mem_singleton.mp h]
      omega

/-- Every number has a digit. -/
theorem digits_ne_nil (n : Nat) : digits n ≠ [] := by
  rw [digits]
  split <;> simp

/-! ## Text -/

/-- The character that writes a decimal digit. -/
def digitChar (d : Nat) : Char := Char.ofNat ('0'.toNat + d)

/-- The value of a decimal digit, for the ten ASCII digits only. -/
def digitValue (c : Char) : Option Nat :=
  if '0' ≤ c ∧ c ≤ '9' then some (c.toNat - '0'.toNat) else none

/-- A digit is read back from its character. -/
theorem digitValue_digitChar {d : Nat} (h : d < 10) : digitValue (digitChar d) = some d := by
  have hall : ∀ d : Fin 10, digitValue (digitChar d.val) = some d.val := by decide
  exact hall ⟨d, h⟩

/-- A row of digits as text. -/
def writeDigits (row : List Nat) : List Char := row.map digitChar

/-- A natural number in decimal. -/
def decimal (n : Nat) : List Char := writeDigits (digits n)

/-- An integer in decimal, with a minus sign if it is negative. -/
def decimalInt (i : Int) : List Char :=
  if i < 0 then '-' :: decimal i.natAbs else decimal i.natAbs

/-- The row of digits that a text starts with, and the rest of the text. -/
def readDigits : List Char → List Nat × List Char
  | [] => ([], [])
  | c :: rest =>
    match digitValue c with
    | some d => (d :: (readDigits rest).1, (readDigits rest).2)
    | none => ([], c :: rest)

/-- What is left after the digits is no longer than the text. -/
theorem length_readDigits_le (text : List Char) :
    (readDigits text).2.length ≤ text.length := by
  induction text with
  | nil => simp [readDigits]
  | cons c rest ih =>
    simp only [readDigits, List.length_cons]
    split
    · exact Nat.le_succ_of_le ih
    · simp

/-- A digit is written by the character that the core library writes for it. -/
theorem digitChar_eq {d : Nat} (h : d < 10) : digitChar d = d.digitChar := by
  have hall : ∀ d : Fin 10, digitChar d.val = d.val.digitChar := by decide
  exact hall ⟨d, h⟩

/-- A natural number has the decimal digits that the core library gives it. -/
theorem decimal_eq_toDigits (n : Nat) : decimal n = Nat.toDigits 10 n := by
  unfold decimal
  fun_induction digits n with
  | case1 n h => rw [Nat.toDigits_of_lt_base h, writeDigits, List.map_singleton, digitChar_eq h]
  | case2 n h ih =>
    have hlast : n % 10 < 10 := Nat.mod_lt n (by decide)
    have hdigits := Nat.toDigits_append_toDigits (by decide) (by omega : 0 < n / 10) hlast
    rw [Nat.div_add_mod, Nat.toDigits_of_lt_base hlast, ← ih] at hdigits
    rw [← hdigits, ← digitChar_eq hlast, writeDigits, List.map_append, List.map_singleton]
    rfl

/-- A natural number is written as the core library writes it. -/
theorem ofList_decimal (n : Nat) : String.ofList (decimal n) = n.repr := by
  rw [decimal_eq_toDigits, Nat.repr_eq_ofList_toDigits]

/-- Digits that are followed by something else are read back. -/
theorem readDigits_writeDigits {row : List Nat} (hrow : ∀ d ∈ row, d < 10) {rest : List Char}
    (hrest : ∀ c ∈ rest.head?, digitValue c = none) :
    readDigits (writeDigits row ++ rest) = (row, rest) := by
  induction row with
  | nil =>
    cases rest with
    | nil => rfl
    | cons c rest => simp [writeDigits, readDigits, hrest c (by simp)]
  | cons d row ih =>
    have hd := digitValue_digitChar (hrow d (by simp))
    have hrest := ih fun e he => hrow e (by simp [he])
    simp only [writeDigits] at hrest
    simp [writeDigits, readDigits, hd, hrest]

/-- Different numbers are written differently. -/
theorem decimal_inj {n m : Nat} : decimal n = decimal m ↔ n = m := by
  constructor
  · intro h
    have hread : ∀ k : Nat, readDigits (decimal k) = (digits k, []) := by
      intro k
      have hdigits : readDigits (writeDigits (digits k) ++ []) = (digits k, []) :=
        readDigits_writeDigits (fun _ hd => lt_ten_of_mem_digits hd) (by simp)
      rwa [List.append_nil] at hdigits
    have hrows := (hread n).symm.trans ((congrArg readDigits h).trans (hread m))
    rw [← ofDigits_digits n, (Prod.mk.inj hrows).1, ofDigits_digits]
  · rintro rfl
    rfl

/-! ## Signs -/

/-- The sign that a text may start with, whether it is a minus sign, and the rest. -/
def readSign : List Char → Bool × List Char
  | '-' :: rest => (true, rest)
  | '+' :: rest => (false, rest)
  | text => (false, text)

/-- What is left after the sign is no longer than the text. -/
theorem length_readSign_le (text : List Char) : (readSign text).2.length ≤ text.length := by
  unfold readSign
  split <;> simp

end SqlFragments.Number
