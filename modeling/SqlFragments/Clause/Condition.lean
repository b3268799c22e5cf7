import SqlFragments.Clause.Group

/-!
# Conditions and filters

A condition joins members by AND and OR; a blank member is dropped when it is
added, so no connective is ever left without a neighbour.  Inside another tree a
condition of more than one member is put between parentheses, so that its members
stay together whatever stands around it.  A filter is a condition after `WHERE`.

Main results:

- `Condition.add_blank`: a blank member changes nothing.
- `Condition.embedded_of_length_le`: a condition of at most one member has no
  parentheses.
-/

namespace SqlFragments

/-! ## Conditions -/

/-- How a member of a condition is joined to the members before it. -/
inductive Connective where
  | and
  | or
deriving DecidableEq, Repr

/-- A connective as code, with its spaces. -/
def Connective.code : Connective → String
  | .and => " AND "
  | .or => " OR "

/-- Members joined by connectives; the connective of the first member is not written. -/
structure Condition where
  members : List (Connective × Item)
deriving Repr

namespace Condition

/-- The condition without members. -/
def empty : Condition := ⟨[]⟩

/-- Adds a member, unless it is blank. -/
def add (c : Condition) (connective : Connective) (item : Item) : Condition :=
  if item.isBlank then c else ⟨c.members ++ [(connective, item)]⟩

/-- Adds a member that must hold too. -/
def and (c : Condition) (item : Item) : Condition := c.add .and item

/-- Adds a member as an alternative. -/
def or (c : Condition) (item : Item) : Condition := c.add .or item

/-- The number of members. -/
def length (c : Condition) : Nat := c.members.length

/-- Whether there are no members. -/
def isEmpty (c : Condition) : Bool := c.members.isEmpty

/-- The members with their connectives between them. -/
def bare (c : Condition) : Query :=
  match c.members with
  | [] => .empty
  | (_, first) :: others =>
    ⟨first.segment :: others.flatMap fun (connective, item) =>
      [.literal connective.code, item.segment]⟩

/-- The members, between parentheses if there are several. -/
def guarded (c : Condition) : Query :=
  if 1 < c.length then toQuery (Group.mk (.query c.bare)) else c.bare

/-- Alone a condition has no parentheses, and inside another tree it is guarded. -/
instance : ToQuery Condition where
  toQuery := bare
  embedded := guarded

@[simp]
theorem toQuery_eq (c : Condition) : toQuery c = c.bare := rfl

@[simp]
theorem embedded_eq (c : Condition) : embedded c = c.guarded := rfl

/-- A blank member changes nothing. -/
theorem add_blank {item : Item} (h : item.isBlank = true) (c : Condition)
    (connective : Connective) : c.add connective item = c := by
  simp [add, h]

/-- A kept item becomes the last member. -/
theorem members_add {item : Item} (h : item.isBlank = false) (c : Condition)
    (connective : Connective) :
    (c.add connective item).members = c.members ++ [(connective, item)] := by
  simp [add, h]

/-- A condition of at most one member has no parentheses. -/
theorem embedded_of_length_le {c : Condition} (h : c.length ≤ 1) : embedded c = c.bare := by
  simp [guarded, Nat.not_lt.mpr h]

end Condition

/-! ## Filters -/

/-- A condition that the word `WHERE` introduces. -/
structure Filter where
  condition : Condition
deriving Repr

namespace Filter

/-- The filter without members. -/
def empty : Filter := ⟨.empty⟩

/-- Adds a member that must hold too. -/
def and (f : Filter) (item : Item) : Filter := ⟨f.condition.and item⟩

/-- Adds a member as an alternative. -/
def or (f : Filter) (item : Item) : Filter := ⟨f.condition.or item⟩

/-- Whether there are no members. -/
def isEmpty (f : Filter) : Bool := f.condition.isEmpty

/-- A filter without members gives nothing, not even the word. -/
instance : ToQuery Filter where
  toQuery f :=
    if f.isEmpty then .empty
    else ((Builder.new.raw (.code "WHERE ")).raw (.query f.condition.bare)).build

theorem toQuery_of_isEmpty {f : Filter} (h : f.isEmpty = true) : toQuery f = .empty := by
  simp [toQuery, h]

/-- A filter with members writes its keyword and then the members without parentheses. -/
theorem toQuery_of_not_isEmpty {f : Filter} (h : f.isEmpty = false) :
    toQuery f = ⟨[.literal "WHERE ", f.condition.bare.asSegment]⟩ := by
  simp only [toQuery, h]
  rfl

/-- A filter with members has the leaves of its condition after the word. -/
theorem leaves_toQuery {f : Filter} (h : f.isEmpty = false) :
    (toQuery f).leaves = .literal "WHERE " :: (toQuery f.condition).leaves := by
  rw [toQuery_of_not_isEmpty h]
  simp [Query.leaves, Segment.leavesOf, Segment.leaves, Query.asSegment]

end Filter

end SqlFragments
