import SqlFragments.Clause.ValueList
import SqlFragments.Identifier

/-!
# Predicates on a column

A predicate compares one column with bound values.  The column is an identifier,
checked before anything else, and values never become code.

Main results:

- `Predicate.query_member_nil`: no value is in an empty list, and every value is
  outside it.
- `Predicate.ofText_error_iff`: a predicate on a text fails exactly when the text is no
  identifier.
-/

namespace SqlFragments

/-- How a column is compared with one value. -/
inductive Comparison where
  | eq
  | ne
  | gt
  | ge
  | lt
  | le
  | like
  | ilike
deriving DecidableEq, Repr

/-- A comparison as code. -/
def Comparison.code : Comparison → String
  | .eq => "="
  | .ne => "!="
  | .gt => ">"
  | .ge => ">="
  | .lt => "<"
  | .le => "<="
  | .like => "LIKE"
  | .ilike => "ILIKE"

/-- What a predicate says of its column. -/
inductive Predicate where
  | compare (comparison : Comparison) (v : Value)
  | isNull
  | isNotNull
  | inList (values : List Value)
  | notIn (values : List Value)
  | between (low high : Value)
deriving Repr

namespace Predicate

/-- A column and code after it. -/
def start (column : Identifier) (code : String) : Builder :=
  (Builder.new.raw column.asItem).raw (.code code)

/-- The column, an operator and the list of values between parentheses.  An empty
list has no written form in the language, so `whenEmpty` stands for it. -/
def membership (column : Identifier) (operator : String) (values : List Value)
    (whenEmpty : String) : Query :=
  let list := ValueList.ofValues values
  if list.isEmpty then .raw whenEmpty
  else ((start column s!" {operator} ").raw (toItem list.parenthesized)).build

/-- The query of a predicate on a column. -/
def query (column : Identifier) : Predicate → Query
  | .compare comparison v => ((start column s!" {comparison.code} ").value v).build
  | .isNull => (start column " IS NULL").build
  | .isNotNull => (start column " IS NOT NULL").build
  | .inList values => membership column "IN" values "1=0"
  | .notIn values => membership column "NOT IN" values "1=1"
  | .between low high =>
    (((start column " BETWEEN ").value low).raw (.code " AND ")).value high |>.build

/-- The query of a predicate on a column that a text names. -/
def ofText (column : String) (p : Predicate) : Except Error Query :=
  (Identifier.parse column).map p.query

/-- No value is in an empty list, and every value is outside it. -/
theorem query_member_nil (column : Identifier) :
    query column (.inList []) = .raw "1=0" ∧ query column (.notIn []) = .raw "1=1" :=
  ⟨rfl, rfl⟩

/-- A predicate on a text fails exactly when the text is no identifier. -/
theorem ofText_error_iff (column : String) (p : Predicate) (e : Error) :
    p.ofText column = .error e ↔ Identifier.parse column = .error e := by
  rw [ofText]
  cases Identifier.parse column <;> simp [Except.map]

end Predicate

end SqlFragments
