import SqlFragments.Proofs.Clause.Parts
import SqlFragments.Template.Expand
import SqlFragments.Template.Weave

/-!
# What an item contributes

Groups, conditions, filters and statements are written from the segments of their items.  An
item therefore contributes one segment wherever it is given, and whether a tree was called a
list leaves no trace in what is written.

Main results:

- `Item.contributes` and `Argument.contributes`: an item and an argument contribute one
  segment everywhere.
- `Condition.bare_plain`, `Filter.toQuery_plain` and `Select.toQuery_plain`: a clause whose
  lists are called trees stands for the same tree.
-/

namespace SqlFragments

/-! ## Contributions -/

/-- An item contributes a segment wherever it is given: it is pushed on a builder, stands
alone between the parentheses of a group, is a member of a condition unless it gives no
text, and is one more segment of the clause of a statement. -/
structure Item.Contributes (item : Item) (segment : Segment) : Prop where
  raw : ∀ b : Builder, b.raw item = b.push segment
  group : toQuery (Group.mk item) = ⟨[.literal "(", segment, .literal ")"]⟩
  condition : ∀ (c : Condition) (connective : Connective),
    toQuery (c.add connective item) =
      ⟨Condition.writeParts (Condition.addPart c.parts connective segment)⟩
  filterAnd : ∀ f : Filter, toQuery (f.and item) =
    ⟨Filter.writeParts (Condition.addPart f.condition.parts .and segment)⟩
  filterOr : ∀ f : Filter, toQuery (f.or item) =
    ⟨Filter.writeParts (Condition.addPart f.condition.parts .or segment)⟩
  column : ∀ s : Select, toQuery (s.column item) =
    ⟨Select.Parts.write { s.parts with columns := s.parts.columns ++ [segment] }⟩
  source : ∀ s : Select, toQuery (s.withSource item) =
    ⟨Select.Parts.write { s.parts with source := some segment }⟩
  join : ∀ s : Select, toQuery (s.join item) =
    ⟨Select.Parts.write { s.parts with joins := s.parts.joins ++ [segment] }⟩
  andWhere : ∀ s : Select, toQuery (s.andWhere item) =
    ⟨Select.Parts.write
      { s.parts with members := Condition.addPart s.parts.members .and segment }⟩
  orWhere : ∀ s : Select, toQuery (s.orWhere item) =
    ⟨Select.Parts.write
      { s.parts with members := Condition.addPart s.parts.members .or segment }⟩
  groupBy : ∀ s : Select, toQuery (s.groupBy item) =
    ⟨Select.Parts.write { s.parts with groupings := s.parts.groupings ++ [segment] }⟩
  orderBy : ∀ s : Select, toQuery (s.orderBy item) =
    ⟨Select.Parts.write { s.parts with orderings := s.parts.orderings ++ [segment] }⟩

/-- Every item contributes its segment. -/
theorem Item.contributes (item : Item) : item.Contributes item.segment where
  raw := fun _ => rfl
  group := rfl
  condition := fun c connective => by
    rw [Condition.toQuery_eq, Condition.bare_eq, Condition.parts_add]
  filterAnd := fun f => by rw [Filter.toQuery_eq, Filter.and, Condition.and, Condition.parts_add]
  filterOr := fun f => by rw [Filter.toQuery_eq, Filter.or, Condition.or, Condition.parts_add]
  column := fun s => by simp [Select.toQuery_eq_parts, Select.parts, Select.column]
  source := fun s => by simp [Select.toQuery_eq_parts, Select.parts, Select.withSource]
  join := fun s => by simp [Select.toQuery_eq_parts, Select.parts, Select.join]
  andWhere := fun s => by
    simp [Select.toQuery_eq_parts, Select.parts, Select.andWhere, Filter.and, Condition.and,
      Condition.parts_add]
  orWhere := fun s => by
    simp [Select.toQuery_eq_parts, Select.parts, Select.orWhere, Filter.or, Condition.or,
      Condition.parts_add]
  groupBy := fun s => by simp [Select.toQuery_eq_parts, Select.parts, Select.groupBy]
  orderBy := fun s => by simp [Select.toQuery_eq_parts, Select.parts, Select.orderBy]

namespace Template

/-- Woven segments divide at an argument. -/
theorem weaveSegments_append {chunks : List String} {before : List Argument}
    (h : chunks.length = before.length + 1) (others : List String) (arg : Argument)
    (after : List Argument) :
    weaveSegments (chunks ++ others) (before ++ arg :: after) =
      weaveSegments chunks before ++ arg.segment :: weaveSegments others after := by
  induction before generalizing chunks with
  | nil =>
    obtain ⟨chunk, rfl⟩ := List.length_eq_one_iff.mp h
    simp [weaveSegments]
  | cons first before ih =>
    obtain ⟨chunk, rest, rfl⟩ := List.exists_cons_of_length_eq_add_one h
    have hrest : rest.length = before.length + 1 := by simpa using h
    simp [weaveSegments, ih hrest]

end Template

/-- An argument contributes a segment wherever it is given: it is pushed on a builder, and
it stands at its hole among the segments of a template, whether the holes are computed one
by one or woven with the chunks between them. -/
structure Argument.Contributes (argument : Argument) (segment : Segment) : Prop where
  arg : ∀ b : Builder, b.arg argument = b.push segment
  hole : ∀ before after : List (Template.Append Argument),
    Template.build (before ++ .arg argument :: after) =
      ⟨(Template.build before).segments ++ segment :: (Template.build after).segments⟩
  woven : ∀ (chunks others : List String) (before after : List Argument),
    chunks.length = before.length + 1 → others.length = after.length + 1 →
    Template.weave (chunks ++ others) (before ++ argument :: after) =
      .ok ⟨Template.weaveSegments chunks before ++
        segment :: Template.weaveSegments others after⟩

/-- Every argument contributes its segment. -/
theorem Argument.contributes (argument : Argument) :
    argument.Contributes argument.segment where
  arg := fun _ => rfl
  hole := fun before after => by simp [Template.build, Template.Append.segment]
  woven := fun chunks others before after hbefore hafter => by
    have hlength : (chunks ++ others).length = (before ++ argument :: after).length + 1 := by
      simp only [List.length_append, List.length_cons]
      omega
    rw [Template.weave, if_pos hlength, Template.weaveSegments_append hbefore]

/-! ## Lists called trees -/

/-- The item of the same segment that is no list. -/
def Item.plain : Item → Item
  | .list q => .query q
  | item => item

@[simp]
theorem Item.segment_plain (item : Item) : item.plain.segment = item.segment := by
  cases item <;> rfl

@[simp]
theorem Item.isBlank_plain (item : Item) : item.plain.isBlank = item.isBlank := by
  rw [isBlank_eq_segment, segment_plain, ← isBlank_eq_segment]

@[simp]
theorem Builder.raw_plain (b : Builder) (item : Item) : b.raw item.plain = b.raw item := by
  rw [raw, item.segment_plain, raw]

@[simp]
theorem Builder.rawAll_plain (b : Builder) (items : List Item) :
    b.rawAll (items.map Item.plain) = b.rawAll items := by
  simp [rawAll, List.foldl_map]

/-- A group with a list inside called a tree. -/
def Group.plain (g : Group) : Group := ⟨g.inner.plain⟩

@[simp]
theorem Group.toQuery_plain (g : Group) : toQuery g.plain = toQuery g := by
  rw [toQuery_eq, toQuery_eq, plain, Item.segment_plain]

namespace Condition

/-- A condition with every list among its members called a tree. -/
def plain (c : Condition) : Condition :=
  ⟨c.members.map fun (connective, item) => (connective, item.plain)⟩

@[simp]
theorem parts_plain (c : Condition) : c.plain.parts = c.parts := by
  simp [plain, parts]

/-- Adding a member does not tell a list from its query. -/
theorem add_plain (c : Condition) (connective : Connective) (item : Item) :
    c.plain.add connective item.plain = (c.add connective item).plain := by
  unfold add plain
  rw [item.isBlank_plain]
  split
  · rfl
  · simp

@[simp]
theorem bare_plain (c : Condition) : c.plain.bare = c.bare := by
  rw [bare_eq, parts_plain, ← bare_eq]

@[simp]
theorem guarded_plain (c : Condition) : c.plain.guarded = c.guarded := by
  rw [guarded, length_eq_parts, parts_plain, bare_plain, ← length_eq_parts, guarded]

end Condition

namespace Filter

/-- A filter with every list among its members called a tree. -/
def plain (f : Filter) : Filter := ⟨f.condition.plain⟩

@[simp]
theorem toQuery_plain (f : Filter) : toQuery f.plain = toQuery f := by
  rw [toQuery_eq, toQuery_eq, plain, Condition.parts_plain]

theorem and_plain (f : Filter) (item : Item) : f.plain.and item.plain = (f.and item).plain :=
  congrArg mk (f.condition.add_plain .and item)

theorem or_plain (f : Filter) (item : Item) : f.plain.or item.plain = (f.or item).plain :=
  congrArg mk (f.condition.add_plain .or item)

end Filter

namespace Select

/-- A statement with every list among the items of its clauses called a tree. -/
def plain (s : Select) : Select where
  columns := s.columns.map Item.plain
  source := s.source.map Item.plain
  joins := s.joins.map Item.plain
  filter := s.filter.plain
  groupings := s.groupings.map Item.plain
  orderings := s.orderings.map Item.plain
  limit := s.limit
  offset := s.offset

@[simp]
theorem parts_plain (s : Select) : s.plain.parts = s.parts := by
  have hsegment : Item.segment ∘ Item.plain = Item.segment := funext Item.segment_plain
  simp [plain, parts, Filter.plain, hsegment]

@[simp]
theorem toQuery_plain (s : Select) : toQuery s.plain = toQuery s := by
  rw [toQuery_eq_parts, parts_plain, ← toQuery_eq_parts]

end Select

end SqlFragments
