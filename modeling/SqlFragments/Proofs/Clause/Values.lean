import SqlFragments.Proofs.Clause.Parts
import SqlFragments.Proofs.Clause.PredicateText
import SqlFragments.Template.Expand
import SqlFragments.Template.Weave

/-!
# The values of clauses

The values of a tree are bound in the order of its leaves.  Codes bring none, so the values
of a clause are those of its items, one item after the other; what is dropped as blank has
no values, and parentheses, separators and keywords add none.

Main results:

- `Builder.values_push`: an append adds the values of the segment at the end.
- `Condition.values_add`: a member adds its values, whether it is dropped or not.
- `Select.values_toQuery`: the values of a statement, clause by clause.
-/

namespace SqlFragments

/-! ## Trees -/

/-- The values in a segment, in the order in which they are bound. -/
def Segment.values (segment : Segment) : List Value := Leaf.values segment.leaves

/-- The values in a query, in the order in which they are bound. -/
def Query.values (q : Query) : List Value := Leaf.values q.leaves

@[simp]
theorem Segment.values_literal (code : String) : (literal code).values = [] := rfl

@[simp]
theorem Segment.values_value (v : Value) : (value v).values = [v] := rfl

@[simp]
theorem Query.values_asSegment (q : Query) : q.asSegment.values = q.values := rfl

/-- The values of segments come one segment after the other. -/
theorem Query.values_mk (segments : List Segment) :
    (Query.mk segments).values = segments.flatMap Segment.values := by
  have hleaves : (Query.mk segments).leaves = (segments.map Segment.leaves).flatten :=
    Segment.leavesOf_eq_flatten segments
  rw [values, hleaves, Leaf.values_flatten, List.flatMap_map]
  rfl

/-- Blank items have no values. -/
theorem Item.values_of_isBlank {item : Item} (h : item.isBlank = true) :
    item.segment.values = [] := by
  rw [Segment.values, Leaf.values, List.filterMap_eq_nil_iff]
  intro leaf hleaf
  have hblank := item.isBlank_iff.mp h leaf hleaf
  cases leaf with
  | literal code => rfl
  | value v => cases hblank

/-! ## Builders, groups and lists -/

namespace Builder

/-- An append adds the values of the segment at the end; the separator has none. -/
theorem values_push (b : Builder) (segment : Segment) :
    (b.push segment).build.values = b.build.values ++ segment.values := by
  have hseparation : b.separation.flatMap Segment.values = [] := by
    unfold separation
    split
    · split <;> rfl
    · rfl
  simp [build, segments_push, Query.values_mk, hseparation]

/-- Items are appended with their values, separators bind nothing. -/
theorem values_rawAll (b : Builder) (items : List Item) :
    (b.rawAll items).build.values =
      b.build.values ++ items.flatMap fun item => item.segment.values := by
  induction items generalizing b with
  | nil => simp
  | cons item items ih => simp [ih, raw, values_push]

end Builder

/-- Parentheses bind nothing. -/
theorem Group.values_toQuery (g : Group) : (toQuery g).values = g.inner.segment.values := by
  simp [Query.values, Segment.values]

namespace ValueList

/-- An append adds the values of the item, whether it is put between parentheses or not. -/
theorem values_append (l : ValueList) (item : Item) :
    (toQuery (l.append item)).values = (toQuery l).values ++ item.segment.values := by
  cases item with
  | code text => exact l.items.values_push _
  | query q => exact l.items.values_push _
  | list q =>
    have hgroup := Group.values_toQuery ⟨.query q⟩
    rw [append_list]
    exact (l.items.values_push _).trans (congrArg _ hgroup)

/-- A list of given values binds them in order. -/
theorem values_ofValues (values : List Value) : (toQuery (ofValues values)).values = values := by
  rw [Query.values, leaves_ofValues, Leaf.values_joined]
  simp [List.flatMap_map]

end ValueList

/-! ## Conditions -/

namespace Condition

/-- The values of a condition are those of its members. -/
theorem values_bare (c : Condition) :
    c.bare.values = c.members.flatMap fun (_, item) => item.segment.values := by
  unfold bare
  cases c.members with
  | nil => rfl
  | cons first others => simp [Query.values_mk, List.flatMap_assoc]

/-- A member adds its values, whether it is dropped or not. -/
theorem values_add (c : Condition) (connective : Connective) (item : Item) :
    (c.add connective item).bare.values = c.bare.values ++ item.segment.values := by
  cases hblank : item.isBlank with
  | true => rw [add_blank hblank, Item.values_of_isBlank hblank, List.append_nil]
  | false => simp [values_bare, members_add hblank]

/-- Guarding a condition binds nothing more. -/
theorem values_guarded (c : Condition) : c.guarded.values = c.bare.values := by
  unfold guarded
  split
  · exact Group.values_toQuery ⟨.query c.bare⟩
  · rfl

end Condition

/-- A filter has the values of its condition. -/
theorem Filter.values_toQuery (f : Filter) : (toQuery f).values = f.condition.bare.values := by
  cases hempty : f.isEmpty with
  | true =>
    have hmembers : f.condition.members = [] := List.isEmpty_iff.mp hempty
    rw [toQuery_of_isEmpty hempty, Condition.values_bare, hmembers]
    rfl
  | false => simp [toQuery_of_not_isEmpty hempty, Query.values_mk]

/-- A member joined by `AND` adds its values. -/
theorem Filter.values_and (f : Filter) (item : Item) :
    (toQuery (f.and item)).values = (toQuery f).values ++ item.segment.values := by
  rw [values_toQuery, values_toQuery]
  exact f.condition.values_add .and item

/-- A member joined by `OR` adds its values. -/
theorem Filter.values_or (f : Filter) (item : Item) :
    (toQuery (f.or item)).values = (toQuery f).values ++ item.segment.values := by
  rw [values_toQuery, values_toQuery]
  exact f.condition.values_add .or item

/-! ## Statements -/

namespace Select

namespace Parts

/-- Commas bind nothing. -/
theorem values_commaSegment (segments : List Segment) :
    (commaSegment segments).values = segments.flatMap Segment.values := by
  rw [Segment.values, leaves_commaSegment, Leaf.values_joined, List.flatMap_map]
  rfl

/-- The selected columns bind their values in order. -/
theorem values_selection (p : Parts) : p.selection.values = p.columns.flatMap Segment.values := by
  unfold selection
  split
  · rename_i hempty
    rw [List.isEmpty_iff.mp hempty]
    rfl
  · exact values_commaSegment p.columns

/-- A list of clauses binds the values of its segments, the keyword none. -/
theorem values_listPieces (keyword : String) (segments : List Segment) :
    (listPieces keyword segments).flatMap Segment.values = segments.flatMap Segment.values := by
  unfold listPieces
  split
  · rename_i hempty
    rw [List.isEmpty_iff.mp hempty]
  · simp [values_commaSegment]

/-- A clause that may be absent binds the values of its segment, if it is there. -/
theorem values_optionPieces (keyword : String) (segment : Option Segment) :
    (optionPieces keyword segment).flatMap Segment.values =
      segment.toList.flatMap Segment.values := by
  cases segment <;> simp [optionPieces]

/-- A filter binds the values of its members, the keyword none. -/
theorem values_filterPieces (c : Condition) :
    (filterPieces c.parts).flatMap Segment.values = c.bare.values := by
  have hfilter : (Query.mk (Filter.writeParts c.parts)).values = c.bare.values := by
    rw [← Filter.toQuery_eq ⟨c⟩, Filter.values_toQuery]
  unfold filterPieces
  split
  · rename_i hempty
    rw [c.bare_eq, List.isEmpty_iff.mp hempty]
    rfl
  · rw [← hfilter, List.flatMap_singleton]
    rfl

end Parts

/-- The values of a statement come clause by clause in the order of the language. -/
theorem values_toQuery (s : Select) :
    (toQuery s).values =
      (s.columns.flatMap fun item => item.segment.values) ++
      (s.source.toList.flatMap fun item => item.segment.values) ++
      (s.joins.flatMap fun item => item.segment.values) ++
      s.filter.condition.bare.values ++
      (s.groupings.flatMap fun item => item.segment.values) ++
      (s.orderings.flatMap fun item => item.segment.values) ++
      s.limit.toList ++ s.offset.toList := by
  have hpieces : (toQuery s).values = s.parts.pieces.flatMap Segment.values := by
    rw [Query.values, leaves_toQuery, Leaf.values_joined, List.flatMap_map]
    rfl
  have hvalue : ∀ v : Option Value,
      (v.map Segment.value).toList.flatMap Segment.values = v.toList := by
    intro v
    cases v <;> rfl
  have hitem : (s.source.map Item.segment).toList.flatMap Segment.values =
      s.source.toList.flatMap fun item => item.segment.values := by
    cases s.source <;> rfl
  rw [hpieces, Parts.pieces]
  simp only [List.flatMap_append, List.flatMap_cons, List.flatMap_nil, List.nil_append,
    List.append_nil, Segment.values_literal, Parts.values_selection, Parts.values_optionPieces,
    Parts.values_listPieces, Parts.values_filterPieces, parts, List.flatMap_map, hvalue, hitem]

end Select

/-! ## Templates -/

namespace Template

/-- Chunks of code have no values, so those of woven segments are those of the arguments. -/
theorem values_weaveSegments {chunks : List String} {args : List Argument}
    (h : chunks.length = args.length + 1) :
    (Query.mk (weaveSegments chunks args)).values =
      args.flatMap fun arg => arg.segment.values := by
  have hchunk : ∀ chunk, (chunkSegments chunk).flatMap Segment.values = [] := by
    intro chunk
    unfold chunkSegments
    split <;> rfl
  rw [Query.values_mk]
  induction args generalizing chunks with
  | nil =>
    obtain ⟨chunk, rfl⟩ := List.length_eq_one_iff.mp h
    simp [weaveSegments, hchunk]
  | cons arg args ih =>
    obtain ⟨chunk, others, rfl⟩ := List.exists_cons_of_length_eq_add_one h
    have hothers : others.length = args.length + 1 := by simpa using h
    simp [weaveSegments, hchunk, ih hothers]

end Template

end SqlFragments
