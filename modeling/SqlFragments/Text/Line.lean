/-!
# Lines of a text

A line ends with a line feed, which a carriage return may stand before.  Inside a
line the spaces are the space and the tab.  In front of the first line a text may
have a byte order mark.

Main results:

- `skipBreaks_le`: what is left after spaces and line breaks is no longer than the text.
-/

namespace SqlFragments.Text

/-- A space inside a line. -/
def isSpace (c : Char) : Bool := c == ' ' || c == '\t'

/-- The text after the spaces and line breaks that it starts with. -/
def skipBreaks : List Char → List Char
  | '\n' :: rest => skipBreaks rest
  | '\r' :: '\n' :: rest => skipBreaks rest
  | c :: rest => if isSpace c then skipBreaks rest else c :: rest
  | [] => []

/-- Skipping line breaks leaves no more text than there was. -/
theorem skipBreaks_le (text : List Char) : (skipBreaks text).length ≤ text.length := by
  fun_induction skipBreaks text with
  | case1 rest ih => exact Nat.le_succ_of_le ih
  | case2 rest ih => exact Nat.le_succ_of_le (Nat.le_succ_of_le ih)
  | case3 c rest _ _ _ ih => exact Nat.le_succ_of_le ih
  | case4 => exact Nat.le_refl _
  | case5 => exact Nat.le_refl _

/-- The text after the byte order mark that it may start with. -/
def dropMark : List Char → List Char
  | '\ufeff' :: rest => rest
  | text => text

end SqlFragments.Text
