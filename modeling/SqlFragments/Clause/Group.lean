import SqlFragments.Builder

/-!
# Parenthesized items

A group puts an item between parentheses.

Main results:

- `Group.leaves_toQuery`: the leaves of a group are those of its item between the
  two parentheses.
-/

namespace SqlFragments

/-- An item to be put between parentheses. -/
structure Group where
  inner : Item
deriving Repr

namespace Group

instance : ToQuery Group where
  toQuery g := ((Builder.new.raw (.code "(")).raw g.inner).raw (.code ")") |>.build

/-- Equality of the inner items, of their kinds as well as of their trees. -/
def equals (g h : Group) : Bool :=
  match g.inner, h.inner with
  | .code c, .code d => c == d
  | .query q, .query r => q.equals r
  | .list q, .list r => q.equals r
  | _, _ => false

/-- A group writes its inner query between parentheses. -/
theorem toQuery_eq (g : Group) :
    toQuery g = ⟨[.literal "(", g.inner.segment, .literal ")"]⟩ := rfl

@[simp]
theorem leaves_toQuery (g : Group) :
    (toQuery g).leaves = .literal "(" :: g.inner.segment.leaves ++ [.literal ")"] := by
  rw [toQuery_eq]
  simp [Query.leaves, Segment.leavesOf, Segment.leaves]

end Group

end SqlFragments
