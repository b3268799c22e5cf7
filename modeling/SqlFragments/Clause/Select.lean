import SqlFragments.Clause.Condition

/-!
# Select statements

A statement keeps its clauses apart, so the order in which they are given does not
matter; the statement is written in the one order that the language has.

Main results:

- `Select.toQuery_empty`: a statement without clauses selects everything.
-/

namespace SqlFragments

/-- The clauses of a select statement. -/
structure Select where
  columns : List Item
  source : Option Item
  joins : List Item
  filter : Filter
  groupings : List Item
  orderings : List Item
  limit : Option Value
  offset : Option Value
deriving Repr

namespace Select

/-- The statement without clauses. -/
def empty : Select where
  columns := []
  source := none
  joins := []
  filter := .empty
  groupings := []
  orderings := []
  limit := none
  offset := none

/-- Adds a column. -/
def column (s : Select) (item : Item) : Select := { s with columns := s.columns ++ [item] }

/-- Sets the source, in the place of an earlier one. -/
def withSource (s : Select) (item : Item) : Select := { s with source := some item }

/-- Adds a join clause. -/
def join (s : Select) (item : Item) : Select := { s with joins := s.joins ++ [item] }

/-- Adds a member to the filter that must hold too. -/
def andWhere (s : Select) (item : Item) : Select := { s with filter := s.filter.and item }

/-- Adds a member to the filter as an alternative. -/
def orWhere (s : Select) (item : Item) : Select := { s with filter := s.filter.or item }

/-- Adds an expression to group by. -/
def groupBy (s : Select) (item : Item) : Select := { s with groupings := s.groupings ++ [item] }

/-- Adds an expression to order by. -/
def orderBy (s : Select) (item : Item) : Select := { s with orderings := s.orderings ++ [item] }

/-- Sets the limit, in the place of an earlier one. -/
def limitTo (s : Select) (v : Value) : Select := { s with limit := some v }

/-- Sets the offset, in the place of an earlier one. -/
def offsetBy (s : Select) (v : Value) : Select := { s with offset := some v }

/-- Items with a comma and a space between neighbours. -/
def commaList (items : List Item) : Query := ((Builder.joined ", ").rawAll items).build

/-- Appends a keyword and a comma-separated list, unless the list is empty. -/
def writeList (b : Builder) (keyword : String) (items : List Item) : Builder :=
  if items.isEmpty then b else (b.raw (.code keyword)).raw (.query (commaList items))

/-- Appends a keyword and an item, if there is one. -/
def writeItem (b : Builder) (keyword : String) : Option Item → Builder
  | some item => (b.raw (.code keyword)).raw item
  | none => b

/-- Appends a keyword and a bound value, if there is one. -/
def writeValue (b : Builder) (keyword : String) : Option Value → Builder
  | some v => (b.raw (.code keyword)).value v
  | none => b

/-- Appends the filter, unless it has no members. -/
def writeFilter (b : Builder) (filter : Filter) : Builder :=
  if filter.isEmpty then b else b.raw (toItem filter)

/-- What is selected: the columns, or everything. -/
def selection (s : Select) : Item :=
  if s.columns.isEmpty then .code "*" else .query (commaList s.columns)

/-- The clauses in the order of the language, with a space between neighbours. -/
def write (s : Select) : Builder :=
  let b := ((Builder.joined " ").raw (.code "SELECT")).raw s.selection
  let b := (writeItem b "FROM" s.source).rawAll s.joins
  let b := writeFilter b s.filter
  let b := writeList b "GROUP BY" s.groupings
  let b := writeList b "ORDER BY" s.orderings
  let b := writeValue b "LIMIT" s.limit
  writeValue b "OFFSET" s.offset

instance : ToQuery Select where
  toQuery s := s.write.build

/-- A statement without clauses selects everything. -/
theorem toQuery_empty :
    toQuery empty = ⟨[.literal "SELECT", .literal " ", .literal "*"]⟩ := rfl

end Select

end SqlFragments
