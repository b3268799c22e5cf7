import SqlFragments.Query

/-!
# What is appended to a query

Two closed choices decide what may enter a query.  An item is trusted: it is code,
a tree, or a tree that is a comma-separated list.  An argument is classified where
it is interpolated: a tree is spliced as code, and anything else is a value to be
bound.

Main results:

- `Item.isBlank_iff`: an item is blank when the leaves it contributes are empty codes.
- `Item.segment_list`: a list enters a query as its tree does.
-/

namespace SqlFragments

/-- A trusted item. -/
inductive Item where
  /-- Code, taken as it stands. -/
  | code (text : String)
  | query (q : Query)
  /-- A comma-separated list: inside another list it is parenthesized, and
  elsewhere it is treated as its tree. -/
  | list (q : Query)
deriving Repr

namespace Item

/-- The segment that an item becomes. -/
def segment : Item → Segment
  | .code text => .literal text
  | .query q => q.asSegment
  | .list q => q.asSegment

/-- Whether an item gives no text. -/
def isBlank : Item → Bool
  | .code text => text.isEmpty
  | .query q => q.isBlank
  | .list q => q.isBlank

@[simp]
theorem segment_code (text : String) : (code text).segment = .literal text := rfl

@[simp]
theorem segment_query (q : Query) : (query q).segment = q.asSegment := rfl

/-- A list enters a query as its tree does. -/
@[simp]
theorem segment_list (q : Query) : (list q).segment = q.asSegment := rfl

/-- An item is blank exactly when the segment that it becomes gives no text. -/
theorem isBlank_eq_segment (item : Item) : item.isBlank = item.segment.isBlank := by
  cases item <;> rfl

/-- An item is blank when every leaf it writes is. -/
theorem isBlank_iff (item : Item) :
    item.isBlank = true ↔ ∀ leaf ∈ item.segment.leaves, leaf.isBlank = true := by
  cases item with
  | code text => simp [isBlank, Segment.leaves, Leaf.isBlank]
  | query q => exact q.isBlank_iff
  | list q => exact q.isBlank_iff

end Item

/-- An argument of a template or of an interpolating append. -/
inductive Argument where
  /-- A tree, spliced as code. -/
  | query (q : Query)
  /-- A scalar, bound as a parameter. -/
  | value (v : Value)
deriving Repr

/-- The segment that an argument becomes. -/
def Argument.segment : Argument → Segment
  | .query q => q.asSegment
  | .value v => .value v

/-! ## Trees -/

/-- Types whose objects stand for a query.  Inside another query an object may
stand for a different tree than alone, and it may be a list. -/
class ToQuery (α : Type) where
  /-- The query that an object stands for alone. -/
  toQuery : α → Query
  /-- The query that an object stands for inside another. -/
  embedded : α → Query := toQuery
  /-- An object as a trusted item. -/
  toItem : α → Item := fun x => .query (embedded x)
  /-- The segments of the query, when the object holds them as they are. -/
  heldSegments : α → Option (List Segment) := fun _ => none

export ToQuery (toQuery embedded toItem heldSegments)

/-- An object as an argument: always a tree, never a value. -/
def toArgument {α : Type} [ToQuery α] (x : α) : Argument := .query (embedded x)

instance : ToQuery Query where
  toQuery q := q
  heldSegments q := some q.segments

@[simp]
theorem Query.toQuery_eq (q : Query) : toQuery q = q := rfl

@[simp]
theorem Query.embedded_eq (q : Query) : embedded q = q := rfl

@[simp]
theorem Query.toItem_eq (q : Query) : toItem q = .query q := rfl

end SqlFragments
