import SqlFragments.Proofs.Compiler.Flattening
import SqlFragments.Script.Step

/-!
# Other values in the same objects

A function on values changes an object by changing every value in it and nothing
else.  Every operation of the library commutes with this change, the ones included
that look at what they are given: a value is never blank, and lists and conditions
are written by the number of their members.

Main results:

- `Segment.leavesOf_mapValuesOf`: the leaves change at their values only.
- `Builder.mapValues_push`, `Condition.mapValues_add`, `Select.write_mapValues`: what
  is appended, what is dropped and what is written commute with the change.
- `Compiler.compile_mapValues`: the command stays, and the bindings change.
- `Store.get_mapValues`: what is seen under a name commutes with the change.
-/

namespace SqlFragments

variable (f : Value → Value)

/-! ## Trees -/

/-- The leaf with its value changed, if it is one. -/
def Leaf.mapValues : Leaf → Leaf
  | .literal code => .literal code
  | .value v => .value (f v)

namespace Segment

mutual

/-- The segment with every value in it changed. -/
def mapValues : Segment → Segment
  | .literal code => .literal code
  | .value v => .value (f v)
  | .subtree inner => .subtree (mapValuesOf inner)

/-- The segments with every value in them changed. -/
def mapValuesOf : List Segment → List Segment
  | [] => []
  | segment :: rest => segment.mapValues :: mapValuesOf rest

end

/-- Segments are changed one by one. -/
theorem mapValuesOf_eq_map (segments : List Segment) :
    mapValuesOf f segments = segments.map (mapValues f) := by
  induction segments with
  | nil => rfl
  | cons segment rest ih => rw [mapValuesOf, ih, List.map_cons]

@[simp]
theorem mapValues_literal (code : String) : mapValues f (.literal code) = .literal code := rfl

/-- The leaves of changed segments are changed at their values. -/
theorem leavesOf_mapValuesOf (segments : List Segment) :
    leavesOf (mapValuesOf f segments) = (leavesOf segments).map (Leaf.mapValues f) := by
  induction segments using list_induction with
  | nil => rfl
  | literal code rest ih => simp [mapValuesOf, mapValues, leavesOf, leaves, Leaf.mapValues, ih]
  | value v rest ih => simp [mapValuesOf, mapValues, leavesOf, leaves, Leaf.mapValues, ih]
  | subtree inner rest hinner hrest =>
    simp [mapValuesOf, mapValues, leavesOf, leaves, hinner, hrest]

/-- Whether segments are blank does not depend on the values in them. -/
theorem areBlank_mapValuesOf (segments : List Segment) :
    areBlank (mapValuesOf f segments) = areBlank segments := by
  have hleaf : ∀ leaf : Leaf, (leaf.mapValues f).isBlank = leaf.isBlank := by
    intro leaf
    cases leaf <;> rfl
  rw [areBlank_eq, areBlank_eq, leavesOf_mapValuesOf, List.all_map]
  exact congrArg (List.all (leavesOf segments)) (funext hleaf)

end Segment

/-- The query with every value in it changed. -/
def Query.mapValues (q : Query) : Query := ⟨Segment.mapValuesOf f q.segments⟩

@[simp]
theorem Query.mapValues_empty : Query.empty.mapValues f = .empty := rfl

/-- The leaves of a changed query are changed at its values. -/
theorem Query.leaves_mapValues (q : Query) :
    (q.mapValues f).leaves = q.leaves.map (Leaf.mapValues f) :=
  Segment.leavesOf_mapValuesOf f q.segments

/-- Whether a query is blank does not depend on the values in it. -/
theorem Query.isBlank_mapValues (q : Query) : (q.mapValues f).isBlank = q.isBlank :=
  Segment.areBlank_mapValuesOf f q.segments

/-! ## Items and arguments -/

/-- The item with every value in it changed. -/
def Item.mapValues : Item → Item
  | .code text => .code text
  | .query q => .query (q.mapValues f)
  | .list q => .list (q.mapValues f)

/-- The argument with every value in it changed. -/
def Argument.mapValues : Argument → Argument
  | .query q => .query (q.mapValues f)
  | .value v => .value (f v)

@[simp]
theorem Item.segment_mapValues (item : Item) :
    (item.mapValues f).segment = item.segment.mapValues f := by
  cases item <;> rfl

/-- Whether an item is blank does not depend on the values in it. -/
theorem Item.isBlank_mapValues (item : Item) : (item.mapValues f).isBlank = item.isBlank := by
  cases item with
  | code text => rfl
  | query q => exact q.isBlank_mapValues f
  | list q => exact q.isBlank_mapValues f

@[simp]
theorem Argument.segment_mapValues (arg : Argument) :
    (arg.mapValues f).segment = arg.segment.mapValues f := by
  cases arg <;> rfl

/-! ## Builders and groups -/

namespace Builder

/-- The builder with every value in it changed. -/
def mapValues (b : Builder) : Builder := ⟨Segment.mapValuesOf f b.segments, b.join⟩

/-- Whether a builder is empty does not depend on the values in it. -/
theorem isEmpty_mapValues (b : Builder) : (b.mapValues f).isEmpty = b.isEmpty := by
  simp [isEmpty, mapValues, Segment.mapValuesOf_eq_map]

/-- The separator of a builder does not depend on the values in it. -/
theorem separation_mapValues (b : Builder) : (b.mapValues f).separation = b.separation := by
  simp [separation, mapValues, Segment.mapValuesOf_eq_map]

/-- One append commutes with the change. -/
theorem mapValues_push (b : Builder) (segment : Segment) :
    (b.push segment).mapValues f = (b.mapValues f).push (segment.mapValues f) := by
  have hseparation : b.separation.map (Segment.mapValues f) = b.separation := by
    simp only [separation]
    split
    · split <;> rfl
    · rfl
  rw [push, push, separation_mapValues]
  simp [mapValues, Segment.mapValuesOf_eq_map, hseparation]

/-- Changing values commutes with appending an item. -/
theorem mapValues_raw (b : Builder) (item : Item) :
    (b.raw item).mapValues f = (b.mapValues f).raw (item.mapValues f) := by
  rw [raw, mapValues_push, raw, Item.segment_mapValues]

/-- Changing values commutes with binding one. -/
theorem mapValues_value (b : Builder) (v : Value) :
    (b.value v).mapValues f = (b.mapValues f).value (f v) :=
  mapValues_push f b (.value v)

/-- Changing values commutes with appending an argument. -/
theorem mapValues_arg (b : Builder) (arg : Argument) :
    (b.arg arg).mapValues f = (b.mapValues f).arg (arg.mapValues f) := by
  rw [Builder.arg, mapValues_push, Builder.arg, Argument.segment_mapValues]

/-- Changing values commutes with appending items. -/
theorem mapValues_rawAll (b : Builder) (items : List Item) :
    (b.rawAll items).mapValues f = (b.mapValues f).rawAll (items.map (Item.mapValues f)) := by
  induction items generalizing b with
  | nil => rfl
  | cons item items ih => rw [rawAll_cons, ih, mapValues_raw, List.map_cons, rawAll_cons]

@[simp]
theorem build_mapValues (b : Builder) : (b.mapValues f).build = b.build.mapValues f := rfl

end Builder

/-- The group with every value in it changed. -/
def Group.mapValues (g : Group) : Group := ⟨g.inner.mapValues f⟩

/-- The query of a changed group is the changed query. -/
theorem Group.toQuery_mapValues (g : Group) :
    toQuery (g.mapValues f) = (toQuery g).mapValues f := by
  rw [Group.toQuery_eq, Group.toQuery_eq]
  simp [Group.mapValues, Query.mapValues, Segment.mapValuesOf_eq_map]

/-! ## Lists -/

namespace ValueList

/-- The list with every value in it changed. -/
def mapValues (l : ValueList) : ValueList := ⟨l.items.mapValues f⟩

/-- Whether a list is empty does not depend on the values in it. -/
theorem isEmpty_mapValues (l : ValueList) : (l.mapValues f).isEmpty = l.isEmpty :=
  l.items.isEmpty_mapValues f

/-- Changing values commutes with listing one. -/
theorem mapValues_value (l : ValueList) (v : Value) :
    (l.value v).mapValues f = (l.mapValues f).value (f v) :=
  congrArg mk (l.items.mapValues_value f v)

/-- Changing values commutes with listing an item. -/
theorem mapValues_append (l : ValueList) (item : Item) :
    (l.append item).mapValues f = (l.mapValues f).append (item.mapValues f) := by
  cases item with
  | code text => exact congrArg mk (l.items.mapValues_raw f (.code text))
  | query q => exact congrArg mk (l.items.mapValues_raw f (.query q))
  | list q =>
    have hgroup := Group.toQuery_mapValues f (Group.mk (.query q))
    rw [append_list, Item.mapValues, append_list]
    apply congrArg mk
    rw [Builder.mapValues_raw, Item.mapValues, ← hgroup]
    rfl

/-- A list of values has the changed values. -/
theorem ofValues_map (values : List Value) :
    ofValues (values.map f) = (ofValues values).mapValues f := by
  have hfold : ∀ l : ValueList, (values.map f).foldl value (l.mapValues f) =
      (values.foldl value l).mapValues f := by
    induction values with
    | nil =>
      intro l
      rfl
    | cons v values ih =>
      intro l
      rw [List.map_cons, List.foldl_cons, List.foldl_cons, ← mapValues_value, ih]
  exact hfold empty

end ValueList

/-! ## Conditions and filters -/

namespace Condition

/-- The condition with every value in it changed. -/
def mapValues (c : Condition) : Condition :=
  ⟨c.members.map fun (connective, item) => (connective, item.mapValues f)⟩

/-- A changed condition has as many members. -/
theorem length_mapValues (c : Condition) : (c.mapValues f).length = c.length := by
  simp [length, mapValues]

/-- A changed condition is empty when the condition is. -/
theorem isEmpty_mapValues (c : Condition) : (c.mapValues f).isEmpty = c.isEmpty := by
  simp [isEmpty, mapValues]

/-- A member is dropped or added whatever the values in it. -/
theorem mapValues_add (c : Condition) (connective : Connective) (item : Item) :
    (c.add connective item).mapValues f = (c.mapValues f).add connective (item.mapValues f) := by
  rw [add, add, Item.isBlank_mapValues]
  split
  · rfl
  · simp [mapValues]

/-- Changing values commutes with writing the members. -/
theorem bare_mapValues (c : Condition) : (c.mapValues f).bare = c.bare.mapValues f := by
  rcases c with ⟨_ | ⟨⟨connective, first⟩, others⟩⟩
  · rfl
  · simp [mapValues, bare, Query.mapValues, Segment.mapValuesOf_eq_map, List.map_flatMap,
      List.flatMap_map]

/-- A condition is parenthesized by the number of its members. -/
theorem guarded_mapValues (c : Condition) : (c.mapValues f).guarded = c.guarded.mapValues f := by
  rw [guarded, guarded, length_mapValues, bare_mapValues]
  split
  · exact Group.toQuery_mapValues f (Group.mk (.query c.bare))
  · rfl

end Condition

namespace Filter

/-- The filter with every value in it changed. -/
def mapValues (filter : Filter) : Filter := ⟨filter.condition.mapValues f⟩

/-- A changed filter is empty when the filter is. -/
theorem isEmpty_mapValues (filter : Filter) : (filter.mapValues f).isEmpty = filter.isEmpty :=
  filter.condition.isEmpty_mapValues f

/-- Changing values commutes with joining a member by `AND`. -/
theorem mapValues_and (filter : Filter) (item : Item) :
    (filter.and item).mapValues f = (filter.mapValues f).and (item.mapValues f) :=
  congrArg mk (filter.condition.mapValues_add f .and item)

/-- Changing values commutes with joining a member by `OR`. -/
theorem mapValues_or (filter : Filter) (item : Item) :
    (filter.or item).mapValues f = (filter.mapValues f).or (item.mapValues f) :=
  congrArg mk (filter.condition.mapValues_add f .or item)

/-- The query of a changed filter is the changed query. -/
theorem toQuery_mapValues (filter : Filter) :
    toQuery (filter.mapValues f) = (toQuery filter).mapValues f := by
  have hempty := filter.isEmpty_mapValues f
  cases h : filter.isEmpty with
  | true => rw [toQuery_of_isEmpty (hempty.trans h), toQuery_of_isEmpty h, Query.mapValues_empty]
  | false =>
    have hbare : (filter.mapValues f).condition.bare = filter.condition.bare.mapValues f :=
      filter.condition.bare_mapValues f
    rw [toQuery_of_not_isEmpty (hempty.trans h), toQuery_of_not_isEmpty h, hbare]
    rfl

end Filter

/-! ## Statements -/

namespace Select

/-- The statement with every value in it changed. -/
def mapValues (s : Select) : Select where
  columns := s.columns.map (Item.mapValues f)
  source := s.source.map (Item.mapValues f)
  joins := s.joins.map (Item.mapValues f)
  filter := s.filter.mapValues f
  groupings := s.groupings.map (Item.mapValues f)
  orderings := s.orderings.map (Item.mapValues f)
  limit := s.limit.map f
  offset := s.offset.map f

/-- Changing values commutes with selecting a column. -/
theorem mapValues_column (s : Select) (item : Item) :
    (s.column item).mapValues f = (s.mapValues f).column (item.mapValues f) := by
  simp [mapValues, column]

/-- Changing values commutes with adding a join. -/
theorem mapValues_join (s : Select) (item : Item) :
    (s.join item).mapValues f = (s.mapValues f).join (item.mapValues f) := by
  simp [mapValues, join]

/-- Changing values commutes with joining a member to the statement's filter by `AND`. -/
theorem mapValues_andWhere (s : Select) (item : Item) :
    (s.andWhere item).mapValues f = (s.mapValues f).andWhere (item.mapValues f) := by
  simp only [mapValues, andWhere, Filter.mapValues_and]

/-- Changing values commutes with joining a member to the statement's filter by `OR`. -/
theorem mapValues_orWhere (s : Select) (item : Item) :
    (s.orWhere item).mapValues f = (s.mapValues f).orWhere (item.mapValues f) := by
  simp only [mapValues, orWhere, Filter.mapValues_or]

/-- Changing values commutes with grouping by an item. -/
theorem mapValues_groupBy (s : Select) (item : Item) :
    (s.groupBy item).mapValues f = (s.mapValues f).groupBy (item.mapValues f) := by
  simp [mapValues, groupBy]

/-- Changing values commutes with ordering by an item. -/
theorem mapValues_orderBy (s : Select) (item : Item) :
    (s.orderBy item).mapValues f = (s.mapValues f).orderBy (item.mapValues f) := by
  simp [mapValues, orderBy]

/-- Changing values commutes with putting commas between items. -/
theorem commaList_map (items : List Item) :
    commaList (items.map (Item.mapValues f)) = (commaList items).mapValues f := by
  rw [commaList, commaList, ← Builder.build_mapValues, Builder.mapValues_rawAll]
  rfl

/-- The selection of a changed statement is the changed selection. -/
theorem selection_mapValues (s : Select) : (s.mapValues f).selection = s.selection.mapValues f := by
  simp only [selection, mapValues, List.isEmpty_map, commaList_map]
  split <;> rfl

/-- Changing values commutes with writing a list of clauses. -/
theorem mapValues_writeList (b : Builder) (keyword : String) (items : List Item) :
    (writeList b keyword items).mapValues f =
      writeList (b.mapValues f) keyword (items.map (Item.mapValues f)) := by
  simp only [writeList, List.isEmpty_map, commaList_map]
  split
  · rfl
  · rw [Builder.mapValues_raw, Builder.mapValues_raw]
    rfl

/-- Changing values commutes with writing a clause that may be absent. -/
theorem mapValues_writeItem (b : Builder) (keyword : String) (item : Option Item) :
    (writeItem b keyword item).mapValues f =
      writeItem (b.mapValues f) keyword (item.map (Item.mapValues f)) := by
  cases item with
  | none => rfl
  | some item =>
    rw [writeItem, Builder.mapValues_raw, Builder.mapValues_raw]
    rfl

/-- Changing values commutes with writing a bound number that may be absent. -/
theorem mapValues_writeValue (b : Builder) (keyword : String) (v : Option Value) :
    (writeValue b keyword v).mapValues f = writeValue (b.mapValues f) keyword (v.map f) := by
  cases v with
  | none => rfl
  | some v =>
    rw [writeValue, Builder.mapValues_value, Builder.mapValues_raw]
    rfl

/-- Changing values commutes with writing a filter. -/
theorem mapValues_writeFilter (b : Builder) (filter : Filter) :
    (writeFilter b filter).mapValues f = writeFilter (b.mapValues f) (filter.mapValues f) := by
  have hitem : toItem (filter.mapValues f) = (toItem filter).mapValues f :=
    congrArg Item.query (filter.toQuery_mapValues f)
  rw [writeFilter, writeFilter, Filter.isEmpty_mapValues, hitem]
  split
  · rfl
  · exact Builder.mapValues_raw f b (toItem filter)

/-- Which clauses are written does not depend on the values in them. -/
theorem write_mapValues (s : Select) : (s.mapValues f).write = s.write.mapValues f := by
  simp only [write, mapValues_writeValue, mapValues_writeList, mapValues_writeFilter,
    Builder.mapValues_rawAll, mapValues_writeItem, Builder.mapValues_raw, ← selection_mapValues]
  rfl

/-- The query of a changed statement is the changed query. -/
theorem toQuery_mapValues (s : Select) : toQuery (s.mapValues f) = (toQuery s).mapValues f :=
  congrArg Builder.build (s.write_mapValues f)

end Select

/-! ## Templates -/

namespace Template

/-- Changing values commutes with weaving chunks and arguments. -/
theorem weaveSegments_map (chunks : List String) (args : List Argument) :
    weaveSegments chunks (args.map (Argument.mapValues f)) =
      Segment.mapValuesOf f (weaveSegments chunks args) := by
  have hchunk : ∀ chunk, (chunkSegments chunk).map (Segment.mapValues f) = chunkSegments chunk := by
    intro chunk
    rw [chunkSegments]
    split <;> rfl
  rw [Segment.mapValuesOf_eq_map]
  induction chunks generalizing args with
  | nil => rfl
  | cons chunk chunks ih =>
    cases args with
    | nil => rw [List.map_nil, weaveSegments, List.map_append, hchunk, ← ih, List.map_nil]
    | cons arg args =>
      rw [List.map_cons, weaveSegments, weaveSegments, List.map_append, hchunk, List.map_cons, ih,
        Argument.segment_mapValues]

/-- Chunks are woven by their number and the number of arguments. -/
theorem weave_map (chunks : List String) (args : List Argument) :
    weave chunks (args.map (Argument.mapValues f)) =
      (weave chunks args).map (Query.mapValues f) := by
  rw [weave, weave, List.length_map, weaveSegments_map]
  split <;> rfl

/-- The append with every value in its argument changed. -/
def Append.mapValues : Append Argument → Append Argument
  | .code text => .code text
  | .arg argument => .arg (argument.mapValues f)

/-- Changing values commutes with building from appends. -/
theorem build_map (appends : List (Append Argument)) :
    build (appends.map (Append.mapValues f)) = (build appends).mapValues f := by
  have hsegment : ∀ append : Append Argument,
      (append.mapValues f).segment = append.segment.mapValues f := by
    intro append
    cases append with
    | code text => rfl
    | arg argument => exact argument.segment_mapValues f
  simp [build, Query.mapValues, Segment.mapValuesOf_eq_map, hsegment]

end Template

/-! ## Commands -/

namespace Leaf

/-- The values of changed leaves are the changed values. -/
theorem values_map (leaves : List Leaf) :
    values (leaves.map (mapValues f)) = (values leaves).map f := by
  have hvalue : ∀ leaf : Leaf, (leaf.mapValues f).value? = leaf.value?.map f := by
    intro leaf
    cases leaf <;> rfl
  simp only [values, List.filterMap_map, List.map_filterMap, Function.comp_def, hvalue]

/-- The text of changed leaves is the same: every value is written as its token. -/
theorem textFrom_map (placeholder : Placeholder) (start : Nat) (leaves : List Leaf) :
    textFrom placeholder start (leaves.map (mapValues f)) = textFrom placeholder start leaves := by
  induction leaves generalizing start with
  | nil => rfl
  | cons leaf rest ih =>
    rw [List.map_cons, textFrom_cons, textFrom_cons, ih]
    cases leaf <;> rfl

end Leaf

/-- The command, and the bindings with every value changed. -/
def Compiled.mapValues (compiled : Compiled) : Compiled :=
  { compiled with bindings := compiled.bindings.map f }

/-- Changed values leave the command as it is and change the bindings one by one. -/
theorem Compiler.compile_mapValues (c : Compiler) (q : Query) :
    c.compile (q.mapValues f) = (c.compile q).mapValues f := by
  rw [compile_query, compile_query, Query.leaves_mapValues, Leaf.textFrom_map, Leaf.values_map]
  rfl

/-! ## Named objects -/

namespace Script

namespace Object

/-- The object with every value in it changed. -/
def mapValues : Object → Object
  | .query q => .query (q.mapValues f)
  | .builder b => .builder (b.mapValues f)
  | .group g => .group (g.mapValues f)
  | .list l => .list (l.mapValues f)
  | .condition c => .condition (c.mapValues f)
  | .filter restriction => .filter (restriction.mapValues f)
  | .select s => .select (s.mapValues f)
  | .identifier i => .identifier i
  | .value v => .value (f v)
  | .compiler c => .compiler c

/-- The query of a changed object is the changed query of the object. -/
theorem query?_mapValues (x : Object) :
    (x.mapValues f).query? = x.query?.map (Query.mapValues f) := by
  cases x with
  | group g => exact congrArg some (g.toQuery_mapValues f)
  | condition c => exact congrArg some (c.bare_mapValues f)
  | filter restriction => exact congrArg some (restriction.toQuery_mapValues f)
  | select s => exact congrArg some (s.toQuery_mapValues f)
  | _ => rfl

/-- The item of a changed object is the changed item of the object. -/
theorem item?_mapValues (x : Object) : (x.mapValues f).item? = x.item?.map (Item.mapValues f) := by
  cases x with
  | group g => exact congrArg (some ∘ Item.query) (g.toQuery_mapValues f)
  | condition c => exact congrArg (some ∘ Item.query) (c.guarded_mapValues f)
  | filter restriction => exact congrArg (some ∘ Item.query) (restriction.toQuery_mapValues f)
  | select s => exact congrArg (some ∘ Item.query) (s.toQuery_mapValues f)
  | _ => rfl

/-- The argument of a changed object is the changed argument of the object. -/
theorem argument?_mapValues (x : Object) :
    (x.mapValues f).argument? = x.argument?.map (Argument.mapValues f) := by
  cases x with
  | group g => exact congrArg (some ∘ Argument.query) (g.toQuery_mapValues f)
  | condition c => exact congrArg (some ∘ Argument.query) (c.guarded_mapValues f)
  | filter restriction => exact congrArg (some ∘ Argument.query) (restriction.toQuery_mapValues f)
  | select s => exact congrArg (some ∘ Argument.query) (s.toQuery_mapValues f)
  | _ => rfl

/-- A changed object is the same identifier, if it is one. -/
theorem identifier?_mapValues (x : Object) : (x.mapValues f).identifier? = x.identifier? := by
  cases x <;> rfl

/-- A changed object is the changed builder, if it is one. -/
theorem builder?_mapValues (x : Object) :
    (x.mapValues f).builder? = x.builder?.map (Builder.mapValues f) := by
  cases x <;> rfl

/-- A changed object is the changed list, if it is one. -/
theorem list?_mapValues (x : Object) :
    (x.mapValues f).list? = x.list?.map (ValueList.mapValues f) := by
  cases x <;> rfl

end Object

namespace Store

/-- The store with every value in its objects changed. -/
def mapValues (store : Store) : Store :=
  ⟨store.entries.map fun (name, x) => (name, x.mapValues f)⟩

/-- The object under a name is changed with the store. -/
theorem find?_mapValues (store : Store) (name : String) :
    (store.mapValues f).find? name = (store.find? name).map (Object.mapValues f) := by
  simp [find?, mapValues, List.find?_map, Function.comp_def]

/-- Changing values commutes with storing an object. -/
theorem mapValues_put (store : Store) (name : String) (x : Object) :
    (store.put name x).mapValues f = (store.mapValues f).put name (x.mapValues f) := by
  simp [put, mapValues, List.filter_map, Function.comp_def]

/-- Two views, the second of which sees in a changed object what the first sees in the
object, only changed, see the same way in a changed store. -/
theorem get_mapValues {α β : Type} {see : Object → Option α} {other : Object → Option β}
    {change : α → β} (h : ∀ x, other (x.mapValues f) = (see x).map change) (store : Store)
    (name : String) :
    (store.mapValues f).get other name = (store.get see name).map change := by
  rw [get, get, find?_mapValues]
  cases store.find? name with
  | none => rfl
  | some x =>
    simp only [Option.map_some, h]
    cases see x <;> rfl

end Store

end Script

end SqlFragments
