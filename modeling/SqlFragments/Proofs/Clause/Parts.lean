import SqlFragments.Clause.Select
import SqlFragments.Proofs.Compiler.Joining

/-!
# The parts of a clause

Conditions, filters and statements keep items until they are written.  Here they are
described by the segments of these items: the tree that is written is a function of this
description, and its leaves are those of the segments with fixed codes between them.

Main results:

- `Condition.bare_eq`, `Filter.toQuery_eq` and `Select.toQuery_eq_parts`: the trees of
  clauses, from the segments of their items.
- `Condition.leavesOf_writeParts` and `Select.leaves_toQuery`: the leaves of these trees.
-/

namespace SqlFragments

/-! ## Conditions -/

namespace Condition

/-- The members of a condition as segments. -/
def parts (c : Condition) : List (Connective × Segment) :=
  c.members.map fun (connective, item) => (connective, item.segment)

/-- Members with one more, unless it gives no text. -/
def addPart (parts : List (Connective × Segment)) (connective : Connective) (segment : Segment) :
    List (Connective × Segment) :=
  if segment.isBlank then parts else parts ++ [(connective, segment)]

/-- Members with their connectives between them. -/
def writeParts : List (Connective × Segment) → List Segment
  | [] => []
  | (_, first) :: others =>
    first :: others.flatMap fun (connective, segment) => [.literal connective.code, segment]

/-- An added member is one more part. -/
theorem parts_add (c : Condition) (connective : Connective) (item : Item) :
    (c.add connective item).parts = addPart c.parts connective item.segment := by
  unfold add addPart parts
  rw [item.isBlank_eq_segment]
  split
  · rfl
  · exact List.map_append

/-- The tree of a condition, from the segments of its members. -/
theorem bare_eq (c : Condition) : c.bare = ⟨writeParts c.parts⟩ := by
  unfold bare parts
  cases c.members with
  | nil => rfl
  | cons first others => simp [writeParts, List.flatMap_map]

/-- A condition without members has no parts. -/
theorem isEmpty_eq_parts (c : Condition) : c.isEmpty = c.parts.isEmpty := by
  rw [isEmpty, parts, List.isEmpty_map]

/-- A condition has one part for each member. -/
theorem length_eq_parts (c : Condition) : c.length = c.parts.length := by
  rw [length, parts, List.length_map]

end Condition

/-! ## Leaves of conditions -/

namespace Condition

/-- Leaves with connectives between them; the first connective is not written. -/
def joinedLeaves : List (Connective × List Leaf) → List Leaf
  | [] => []
  | (_, first) :: others =>
    first ++ others.flatMap fun (connective, leaves) => .literal connective.code :: leaves

/-- The leaves of written members are those of the members, joined. -/
theorem leavesOf_writeParts (parts : List (Connective × Segment)) :
    Segment.leavesOf (writeParts parts) =
      joinedLeaves (parts.map fun (connective, segment) => (connective, segment.leaves)) := by
  cases parts with
  | nil => rfl
  | cons part others =>
    simp only [writeParts, List.map_cons, joinedLeaves, Segment.leavesOf]
    congr 1
    induction others with
    | nil => rfl
    | cons next others ih => simp [Segment.leavesOf, Segment.leaves, ih]

end Condition

/-! ## Filters -/

/-- The segments of a filter: none without members. -/
def Filter.writeParts (parts : List (Connective × Segment)) : List Segment :=
  if parts.isEmpty then [] else [.literal "WHERE ", .subtree (Condition.writeParts parts)]

/-- The tree of a filter, from the segments of its members. -/
theorem Filter.toQuery_eq (f : Filter) : toQuery f = ⟨writeParts f.condition.parts⟩ := by
  rw [writeParts, ← f.condition.isEmpty_eq_parts]
  cases hempty : f.isEmpty with
  | true =>
    have hcondition : f.condition.isEmpty = true := hempty
    rw [toQuery_of_isEmpty hempty, if_pos hcondition]
    rfl
  | false =>
    have hcondition : f.condition.isEmpty = false := hempty
    rw [toQuery_of_not_isEmpty hempty, hcondition, f.condition.bare_eq]
    rfl

/-! ## Statements -/

namespace Select

/-- The clauses of a statement, with segments for their items. -/
structure Parts where
  columns : List Segment
  source : Option Segment
  joins : List Segment
  members : List (Connective × Segment)
  groupings : List Segment
  orderings : List Segment
  limit : Option Value
  offset : Option Value

/-- The segments that the items of a statement become. -/
def parts (s : Select) : Parts where
  columns := s.columns.map Item.segment
  source := s.source.map Item.segment
  joins := s.joins.map Item.segment
  members := s.filter.condition.parts
  groupings := s.groupings.map Item.segment
  orderings := s.orderings.map Item.segment
  limit := s.limit
  offset := s.offset

/-- Segments with a comma and a space between neighbours, as one segment. -/
def commaSegment (segments : List Segment) : Segment :=
  .subtree (segments.intersperse (.literal ", "))

namespace Parts

/-- A keyword and a list of segments, which has to have some. -/
def listPieces (keyword : String) (segments : List Segment) : List Segment :=
  if segments.isEmpty then [] else [.literal keyword, commaSegment segments]

/-- A keyword and a segment, if there is one. -/
def optionPieces (keyword : String) (segment : Option Segment) : List Segment :=
  segment.elim [] fun segment => [.literal keyword, segment]

/-- The filter, if it has members. -/
def filterPieces (members : List (Connective × Segment)) : List Segment :=
  if members.isEmpty then [] else [.subtree (Filter.writeParts members)]

/-- What is selected: the columns, or everything. -/
def selection (p : Parts) : Segment :=
  if p.columns.isEmpty then .literal "*" else commaSegment p.columns

/-- The pieces of a statement in the order of the language. -/
def pieces (p : Parts) : List Segment :=
  [.literal "SELECT", p.selection] ++
    optionPieces "FROM" p.source ++ p.joins ++ filterPieces p.members ++
    listPieces "GROUP BY" p.groupings ++ listPieces "ORDER BY" p.orderings ++
    optionPieces "LIMIT" (p.limit.map Segment.value) ++
    optionPieces "OFFSET" (p.offset.map Segment.value)

/-- The pieces with a space between neighbours. -/
def write (p : Parts) : List Segment := p.pieces.intersperse (.literal " ")

end Parts

/-- Items with commas between them are a single segment of theirs. -/
theorem asSegment_commaList (items : List Item) :
    (commaList items).asSegment = commaSegment (items.map Item.segment) := by
  rw [commaList, Builder.rawAll_eq_foldl_push, commaSegment, ← Builder.segments_foldl_push_joined]
  rfl

section

variable (b : Builder) (keyword : String)

/-- Writing a list of clauses appends its pieces. -/
theorem writeList_eq (items : List Item) :
    writeList b keyword items =
      (Parts.listPieces keyword (items.map Item.segment)).foldl Builder.push b := by
  unfold writeList Parts.listPieces
  rw [List.isEmpty_map, ← asSegment_commaList]
  split <;> rfl

/-- Writing a clause that may be absent appends its pieces. -/
theorem writeItem_eq (item : Option Item) :
    writeItem b keyword item =
      (Parts.optionPieces keyword (item.map Item.segment)).foldl Builder.push b := by
  cases item <;> rfl

/-- Writing a bound number that may be absent appends its pieces. -/
theorem writeValue_eq (v : Option Value) :
    writeValue b keyword v =
      (Parts.optionPieces keyword (v.map Segment.value)).foldl Builder.push b := by
  cases v <;> rfl

/-- Writing a filter appends its pieces. -/
theorem writeFilter_eq (f : Filter) :
    writeFilter b f = (Parts.filterPieces f.condition.parts).foldl Builder.push b := by
  have hempty : f.isEmpty = f.condition.parts.isEmpty := f.condition.isEmpty_eq_parts
  have hsegment : (toItem f).segment = .subtree (Filter.writeParts f.condition.parts) :=
    congrArg Query.asSegment f.toQuery_eq
  unfold writeFilter Parts.filterPieces
  rw [hempty]
  split
  · rfl
  · exact congrArg b.push hsegment

end

/-- The tree of a statement, from the segments of its items. -/
theorem toQuery_eq_parts (s : Select) : toQuery s = ⟨s.parts.write⟩ := by
  have hselection : s.selection.segment = s.parts.selection := by
    unfold selection Parts.selection parts
    rw [List.isEmpty_map, ← asSegment_commaList]
    split <;> rfl
  have hwrite : s.write = s.parts.pieces.foldl Builder.push (Builder.joined " ") := by
    unfold write Parts.pieces
    simp only [writeValue_eq, writeList_eq, writeFilter_eq, Builder.rawAll_eq_foldl_push,
      writeItem_eq, List.foldl_append, ← hselection]
    rfl
  change s.write.build = _
  rw [hwrite, Builder.build, Builder.segments_foldl_push_joined, Parts.write]

end Select

/-! ## Leaves of statements -/

namespace Select

/-- The leaves of a comma-separated list have a comma and a space between neighbours. -/
theorem leaves_commaSegment (segments : List Segment) :
    (commaSegment segments).leaves = Leaf.joined ", " (segments.map Segment.leaves) :=
  Builder.leavesOf_intersperse ", " segments

/-- The leaves of a statement are those of its pieces, with a space between neighbours. -/
theorem leaves_toQuery (s : Select) :
    (toQuery s).leaves = Leaf.joined " " (s.parts.pieces.map Segment.leaves) := by
  rw [toQuery_eq_parts]
  exact Builder.leavesOf_intersperse " " s.parts.pieces

end Select

end SqlFragments
