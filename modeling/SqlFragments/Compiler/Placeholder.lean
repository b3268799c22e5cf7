import SqlFragments.Number.Decimal

/-!
# Placeholders

A placeholder stands in a command where a value is bound.  The value with index
zero is the first in document order; numbered styles count from one.

Main results:

- `Placeholder.token_numbered` and `Placeholder.token_eq_repr`: the token of a numbered style
  is its sigil and a number.
- `Placeholder.token_inj`: in a numbered style different values have different tokens.
-/

namespace SqlFragments

/-- How placeholders are written. -/
inductive Placeholder where
  /-- A question mark for every value. -/
  | questionMark
  /-- `$1`, `$2` and so on. -/
  | dollar
  /-- `:1`, `:2` and so on. -/
  | colon
  /-- `@p1`, `@p2` and so on. -/
  | atP
  /-- Any other style, as a function of the index. -/
  | custom (name : Nat → String)

namespace Placeholder

/-- The characters before the number in a numbered style. -/
def sigil : Placeholder → Option (List Char)
  | .dollar => some ['$']
  | .colon => some [':']
  | .atP => some ['@', 'p']
  | _ => none

/-- The token of the value at an index, in a numbered style. -/
def numbered (sigil : List Char) (index : Nat) : String :=
  String.ofList (sigil ++ Number.decimal (index + 1))

/-- The token of the value at an index. -/
def token : Placeholder → Nat → String
  | .questionMark, _ => "?"
  | .dollar, index => numbered ['$'] index
  | .colon, index => numbered [':'] index
  | .atP, index => numbered ['@', 'p'] index
  | .custom name, index => name index

/-- The name of a style. -/
def describe : Placeholder → String
  | .questionMark => "QuestionMark"
  | .dollar => "Dollar"
  | .colon => "Colon"
  | .atP => "AtP"
  | .custom _ => "Custom(<fn>)"

/-- The style that a configuration names. -/
def ofName : String → Option Placeholder
  | "question_mark" => some .questionMark
  | "dollar" => some .dollar
  | "colon" => some .colon
  | "at_p" => some .atP
  | _ => none

/-- The token of a numbered style is its sigil and a number. -/
theorem token_numbered {p : Placeholder} {s : List Char} (h : p.sigil = some s) (index : Nat) :
    (p.token index).toList = s ++ Number.decimal (index + 1) := by
  cases p <;> simp_all [sigil, token, numbered]

/-- The tokens of a numbered style count from one, as the core library writes numbers. -/
theorem token_eq_repr {p : Placeholder} {s : List Char} (h : p.sigil = some s) (index : Nat) :
    p.token index = String.ofList s ++ (index + 1).repr := by
  rw [← String.toList_inj, token_numbered h, String.toList_append, ← Number.ofList_decimal,
    String.toList_ofList, String.toList_ofList]

/-- Different values have different tokens in a numbered style. -/
theorem token_inj {p : Placeholder} {s : List Char} (h : p.sigil = some s) {i j : Nat} :
    p.token i = p.token j ↔ i = j := by
  rw [← String.toList_inj, token_numbered h, token_numbered h, List.append_cancel_left_eq,
    Number.decimal_inj, Nat.add_right_cancel_iff]

end Placeholder

end SqlFragments
