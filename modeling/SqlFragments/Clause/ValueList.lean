import SqlFragments.Clause.Group

/-!
# Comma-separated lists

A value list joins values and items by commas.  It is the one place where a list
differs from another tree: a list inside a list is put between parentheses.

Main results:

- `ValueList.append_list`: a list inside a list becomes a group.
- `ValueList.segments_ofValues`: the segments of a list of values.
-/

namespace SqlFragments

/-- A comma-separated list under construction. -/
structure ValueList where
  items : Builder
deriving Repr

namespace ValueList

/-- The list without items. -/
def empty : ValueList := ⟨.joined ","⟩

/-- Appends a bound value. -/
def value (l : ValueList) (v : Value) : ValueList := ⟨l.items.value v⟩

/-- The list of bound values. -/
def ofValues (values : List Value) : ValueList := values.foldl value empty

/-- Appends an item; a list is put between parentheses first. -/
def append (l : ValueList) : Item → ValueList
  | .list q => ⟨l.items.raw (toItem (Group.mk (.query q)))⟩
  | item => ⟨l.items.raw item⟩

/-- Whether the list has no items. -/
def isEmpty (l : ValueList) : Bool := l.items.isEmpty

/-- A list stands for its items alone, and as an item it is a list. -/
instance : ToQuery ValueList where
  toQuery l := l.items.build
  toItem l := .list l.items.build

/-- Appends a list as one item. -/
def nested (l inner : ValueList) : ValueList := l.append (toItem inner)

/-- The list between parentheses. -/
def parenthesized (l : ValueList) : Group := ⟨toItem l⟩

/-- A list inside a list becomes a group. -/
theorem append_list (l : ValueList) (q : Query) :
    l.append (.list q) = ⟨l.items.raw (.query (toQuery (Group.mk (.query q))))⟩ := rfl

/-- A nested list is one more item, between its own parentheses. -/
theorem nested_eq (l inner : ValueList) :
    l.nested inner = ⟨l.items.raw (.query (toQuery (Group.mk (.query (toQuery inner)))))⟩ := rfl

/-- Binding values one by one adds one segment for each of them. -/
theorem items_foldl_value (values : List Value) (l : ValueList) :
    (values.foldl value l).items = (values.map Segment.value).foldl Builder.push l.items := by
  induction values generalizing l with
  | nil => rfl
  | cons v values ih => rw [List.foldl_cons, ih, List.map_cons, List.foldl_cons]; rfl

/-- A list of values has one comma between neighbours. -/
theorem segments_ofValues (v : Value) (values : List Value) :
    (ofValues (v :: values)).items.segments =
      .value v :: values.flatMap fun w => [.literal ",", .value w] := by
  have hne : (empty.value v).items.segments ≠ [] := List.cons_ne_nil (Segment.value v) []
  rw [ofValues, List.foldl_cons, items_foldl_value, Builder.segments_foldl_push (.inr hne),
    List.flatMap_map]
  rfl

end ValueList

end SqlFragments
