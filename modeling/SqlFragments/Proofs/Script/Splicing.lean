import Mathlib.Data.List.Forall2
import SqlFragments.Proofs.Clause.Contributions
import SqlFragments.Script.Step

/-!
# Objects inside trees

An object that stands for a query enters another tree in four ways: as a trusted item or as
an argument, and each from the object itself or from a borrowed one.  The conversions are
given apart for each type, and all four lead to one subtree, which every use contributes.
Only a condition of several members contributes another tree than it stands for.

An item may call its tree a list.  What is said here of whole runs of edits is that this
name is seen by one operation only, the append to a list.

Main results:

- `Object.entries?_contribute`: the four conversions of an object contribute one segment.
- `Edit.apply_plain`: an edit of anything but a list commutes with calling lists trees.
- `view_runEdits`: alike runs of edits make objects that stand for one query.
- `objects_are_spliced_alike`: both, and that an append to a list sees the name.
-/

namespace SqlFragments.Script

/-! ## Four ways into a tree -/

/-- An object converted in the four ways that there are. -/
structure Entries where
  item : Item
  borrowedItem : Item
  argument : Argument
  borrowedArgument : Argument

namespace Entries

/-- The conversions that most types share: the query that the object stands for. -/
def ofTree {α : Type} [ToQuery α] (x : α) : Entries where
  item := .query (toQuery x)
  borrowedItem := .query (toQuery x)
  argument := .query (toQuery x)
  borrowedArgument := .query (toQuery x)

/-- The conversions of conditions: between parentheses if there are several members. -/
def ofCondition (c : Condition) : Entries where
  item := .query c.guarded
  borrowedItem := .query c.guarded
  argument := .query c.guarded
  borrowedArgument := .query c.guarded

/-- The conversions of lists: an item is called a list, an argument is not. -/
def ofList (l : ValueList) : Entries where
  item := .list (toQuery l)
  borrowedItem := .list (toQuery l)
  argument := .query (toQuery l)
  borrowedArgument := .query (toQuery l)

/-- All four ways contribute one segment. -/
structure Contribute (e : Entries) (segment : Segment) : Prop where
  item : e.item.Contributes segment
  borrowedItem : e.borrowedItem.Contributes segment
  argument : e.argument.Contributes segment
  borrowedArgument : e.borrowedArgument.Contributes segment

/-- Conversions to items and arguments of one segment contribute it. -/
theorem contribute_of_segments {e : Entries} {segment : Segment}
    (hitem : e.item.segment = segment) (hborrowedItem : e.borrowedItem.segment = segment)
    (hargument : e.argument.segment = segment)
    (hborrowedArgument : e.borrowedArgument.segment = segment) : e.Contribute segment where
  item := hitem ▸ e.item.contributes
  borrowedItem := hborrowedItem ▸ e.borrowedItem.contributes
  argument := hargument ▸ e.argument.contributes
  borrowedArgument := hborrowedArgument ▸ e.borrowedArgument.contributes

end Entries

namespace Object

/-- The conversions of an object that stands for a query. -/
def entries? : Object → Option Entries
  | .query q => some (.ofTree q)
  | .builder b => some (.ofTree b)
  | .group g => some (.ofTree g)
  | .list l => some (.ofList l)
  | .condition c => some (.ofCondition c)
  | .filter f => some (.ofTree f)
  | .select s => some (.ofTree s)
  | _ => none

/-- The tree that an object contributes to another one, from the query that it stands for:
a condition of several members is put between parentheses. -/
def spliced (x : Object) (q : Query) : Query :=
  match x with
  | .condition c =>
    if 1 < c.length then ⟨[.literal "(", q.asSegment, .literal ")"]⟩ else q
  | _ => q

/-- The conversions are those that scripts use. -/
theorem entries?_agree {x : Object} {e : Entries} (h : x.entries? = some e) :
    x.item? = some e.item ∧ x.item? = some e.borrowedItem ∧
      x.argument? = some e.argument ∧ x.argument? = some e.borrowedArgument := by
  cases x with
  | identifier i => cases h
  | value v => cases h
  | compiler c => cases h
  | _ =>
    cases h
    exact ⟨rfl, rfl, rfl, rfl⟩

end Object

/-- A condition inside a tree is its members, between parentheses if there are several. -/
theorem guarded_eq_spliced (c : Condition) :
    c.guarded = (Object.condition c).spliced (toQuery c) := by
  rw [Condition.guarded, Object.spliced, Condition.toQuery_eq]
  split <;> rfl

/-- The four conversions of an object contribute one segment, the tree that the object
contributes. -/
theorem Object.entries?_contribute {x : Object} {q : Query} (h : x.query? = some q) :
    ∃ e, x.entries? = some e ∧ e.Contribute (x.spliced q).asSegment := by
  cases x with
  | condition c =>
    cases h
    rw [← guarded_eq_spliced]
    exact ⟨_, rfl, Entries.contribute_of_segments rfl rfl rfl rfl⟩
  | identifier i => cases h
  | value v => cases h
  | compiler c => cases h
  | _ =>
    cases h
    exact ⟨_, rfl, Entries.contribute_of_segments rfl rfl rfl rfl⟩

/-! ## Lists called trees -/

namespace Object

/-- An object with every list that it holds called a tree. -/
def plain : Object → Object
  | .group g => .group g.plain
  | .condition c => .condition c.plain
  | .filter f => .filter f.plain
  | .select s => .select s.plain
  | x => x

@[simp]
theorem query?_plain (x : Object) : x.plain.query? = x.query? := by
  cases x with
  | group g => exact congrArg some g.toQuery_plain
  | condition c => exact congrArg some c.bare_plain
  | filter f => exact congrArg some f.toQuery_plain
  | select s => exact congrArg some s.toQuery_plain
  | _ => rfl

@[simp]
theorem item?_plain (x : Object) : x.plain.item? = x.item? := by
  cases x with
  | group g => exact congrArg (fun q => some (Item.query q)) g.toQuery_plain
  | condition c => exact congrArg (fun q => some (Item.query q)) c.guarded_plain
  | filter f => exact congrArg (fun q => some (Item.query q)) f.toQuery_plain
  | select s => exact congrArg (fun q => some (Item.query q)) s.toQuery_plain
  | _ => rfl

@[simp]
theorem argument?_plain (x : Object) : x.plain.argument? = x.argument? := by
  cases x with
  | group g => exact congrArg (fun q => some (Argument.query q)) g.toQuery_plain
  | condition c => exact congrArg (fun q => some (Argument.query q)) c.guarded_plain
  | filter f => exact congrArg (fun q => some (Argument.query q)) f.toQuery_plain
  | select s => exact congrArg (fun q => some (Argument.query q)) s.toQuery_plain
  | _ => rfl

/-- A list holds no list under this name, so it is itself when its lists are called trees. -/
theorem plain_eq_list {x : Object} {l : ValueList} (h : x.plain = .list l) : x = .list l := by
  cases x with
  | list l => exact h
  | _ => cases h

end Object

/-- An item is added to anything but a list in the same way if it is called a tree. -/
theorem Change.applyItem_plain (change : Change) (item : Item) {x : Object}
    (hx : ∀ l, x ≠ .list l) :
    change.applyItem item.plain x.plain = (change.applyItem item x).map Object.plain := by
  cases x with
  | list l => exact absurd rfl (hx l)
  | builder b => cases change <;> simp [applyItem, Object.plain]
  | condition c => cases change <;> simp [applyItem, Object.plain, Condition.add_plain]
  | filter f =>
    cases change with
    | connect connective source =>
      cases connective <;> simp [applyItem, Object.plain, Filter.and_plain, Filter.or_plain]
    | _ => rfl
  | select s =>
    cases change with
    | connect connective source =>
      cases connective <;>
        simp [applyItem, Object.plain, Select.plain, Select.andWhere, Select.orWhere,
          Filter.and_plain, Filter.or_plain]
    | _ =>
      simp [applyItem, Object.plain, Select.plain, Select.column, Select.withSource, Select.join,
        Select.groupBy, Select.orderBy]
  | _ => rfl

/-! ## Runs of edits -/

/-- A change of an object, with what it adds already computed. -/
inductive Edit where
  | item (change : Change) (added : Item)
  | items (added : List Item)
  | value (change : Change) (v : Value)
  | argument (added : Argument)
  | list (inner : ValueList)

namespace Edit

/-- The object after an edit; nothing for an object of an unsuitable kind. -/
def apply : Edit → Object → Option Object
  | .item change added => change.applyItem added
  | .items added => Change.applyItems added
  | .value change v => change.applyValue v
  | .argument added => Change.applyArgument added
  | .list inner => Change.applyList inner

/-- Edits that add the same in the same way, but one may call a list what the other calls a
tree. -/
inductive Alike : Edit → Edit → Prop where
  | same (edit : Edit) : Alike edit edit
  | item {change other : Change} {added otherAdded : Item}
      (hway : change.applyItem = other.applyItem) (hadded : added.plain = otherAdded.plain) :
      Alike (.item change added) (.item other otherAdded)
  | items {added otherAdded : List Item}
      (hadded : added.map Item.plain = otherAdded.map Item.plain) :
      Alike (.items added) (.items otherAdded)

/-- The edit that appends one item. -/
def Appends : Edit → Prop
  | .item (.raw _) _ => True
  | _ => False

end Edit

/-- Every change that a script makes is an edit. -/
theorem Change.exists_edit {store : Store} {change : Change} {apply : Object → Option Object}
    (h : change.eval store = .ok apply) : ∃ edit : Edit, edit.apply = apply := by
  have hitem : ∀ {found : Except Failure Item}, found.map change.applyItem = .ok apply →
      ∃ edit : Edit, edit.apply = apply := by
    intro found hfound
    obtain ⟨added, -, rfl⟩ := Template.map_eq_ok hfound
    exact ⟨.item change added, rfl⟩
  cases change with
  | value v => exact ⟨.value (.value v) v, Except.ok.inj h⟩
  | limit v => exact ⟨.value (.limit v) v, Except.ok.inj h⟩
  | offset v => exact ⟨.value (.offset v) v, Except.ok.inj h⟩
  | rawAll items =>
    obtain ⟨added, -, rfl⟩ := Template.map_eq_ok h
    exact ⟨.items added, rfl⟩
  | argument arg =>
    obtain ⟨added, -, rfl⟩ := Template.map_eq_ok h
    exact ⟨.argument added, rfl⟩
  | nested name =>
    obtain ⟨inner, -, rfl⟩ := Template.map_eq_ok h
    exact ⟨.list inner, rfl⟩
  | _ => exact hitem h

/-- Appending items does not tell a list from its query. -/
theorem Change.applyItems_plain (items : List Item) (x : Object) :
    applyItems (items.map Item.plain) x.plain = (applyItems items x).map Object.plain := by
  cases x with
  | builder b => simp [applyItems, Object.plain]
  | _ => rfl

/-- Binding a value does not tell a list from its query. -/
theorem Change.applyValue_plain (change : Change) (v : Value) (x : Object) :
    change.applyValue v x.plain = (change.applyValue v x).map Object.plain := by
  cases x with
  | builder b => cases change <;> rfl
  | list l => cases change <;> rfl
  | select s => cases change <;> rfl
  | _ => rfl

/-- Appending an argument does not tell a list from its query. -/
theorem Change.applyArgument_plain (argument : Argument) (x : Object) :
    applyArgument argument x.plain = (applyArgument argument x).map Object.plain := by
  cases x <;> rfl

/-- Nesting a list does not tell a list from its query. -/
theorem Change.applyList_plain (inner : ValueList) (x : Object) :
    applyList inner x.plain = (applyList inner x).map Object.plain := by
  cases x <;> rfl

namespace Edit

/-- An edit with every list that it adds called a tree. -/
def plain : Edit → Edit
  | .item change added => .item change added.plain
  | .items added => .items (added.map Item.plain)
  | edit => edit

/-- An edit of anything but a list commutes with calling lists trees. -/
theorem apply_plain (edit : Edit) {x : Object} (hx : ∀ l, x ≠ .list l) :
    edit.plain.apply x.plain = (edit.apply x).map Object.plain := by
  cases edit with
  | item change added => exact change.applyItem_plain added hx
  | items added => exact Change.applyItems_plain added x
  | value change v => exact change.applyValue_plain v x
  | argument added => exact Change.applyArgument_plain added x
  | list inner => exact Change.applyList_plain inner x

/-- An edit makes a list of a list only. -/
theorem exists_list_of_apply {edit : Edit} {x : Object} {l : ValueList}
    (h : edit.apply x = some (.list l)) : ∃ before, x = .list before := by
  cases edit with
  | item change added =>
    cases x with
    | list before => exact ⟨before, rfl⟩
    | _ =>
      cases change with
      | connect connective source => cases connective <;> cases h
      | _ => cases h
  | value change v =>
    cases x with
    | list before => exact ⟨before, rfl⟩
    | _ => cases change <;> cases h
  | _ =>
    cases x with
    | list before => exact ⟨before, rfl⟩
    | _ => cases h

/-- A list takes items by appends only, so other alike edits of it are the same. -/
theorem Alike.apply_list {edit other : Edit} (h : edit.Alike other)
    (happend : edit.Appends → edit = other) (l : ValueList) :
    edit.apply (.list l) = other.apply (.list l) := by
  cases h with
  | same edit => rfl
  | items hadded => rfl
  | item hway hadded =>
    rename_i change other added otherAdded
    cases change with
    | raw source => rw [happend trivial]
    | _ =>
      rw [Edit.apply, Edit.apply, ← hway]
      rfl

/-- Alike edits act alike on objects that differ in what is called a list, unless they append
different items to a list. -/
theorem Alike.apply {edit other : Edit} (h : edit.Alike other) {x y : Object}
    (hxy : x.plain = y.plain) (happend : (∃ l, x = .list l) → edit.Appends → edit = other) :
    (edit.apply x).map Object.plain = (other.apply y).map Object.plain := by
  by_cases hx : ∃ l, x = .list l
  · obtain ⟨l, rfl⟩ := hx
    rw [Object.plain_eq_list hxy.symm, h.apply_list (happend ⟨l, rfl⟩)]
  · have hxlist : ∀ l, x ≠ .list l := fun l hl => hx ⟨l, hl⟩
    have hylist : ∀ l, y ≠ .list l := by
      rintro l rfl
      exact hxlist l (Object.plain_eq_list hxy)
    have hplain : edit.plain.apply = other.plain.apply := by
      cases h with
      | same edit => rfl
      | item hway hadded => rw [plain, plain, Edit.apply, Edit.apply, hway, hadded]
      | items hadded => rw [plain, plain, hadded]
    rw [← edit.apply_plain hxlist, ← other.apply_plain hylist, hplain, hxy]

end Edit

/-- An object after a run of edits. -/
def runEdits : List Edit → Object → Option Object
  | [], x => some x
  | edit :: rest, x => (edit.apply x).bind (runEdits rest)

/-- Alike runs of edits end in objects that differ in what is called a list, unless they
append different items to a list. -/
theorem runEdits_alike {edits others : List Edit} (h : List.Forall₂ Edit.Alike edits others)
    {x y : Object} (hxy : x.plain = y.plain)
    (happend : (∃ l, x = .list l) →
      List.Forall₂ (fun edit other => edit.Appends → edit = other) edits others) :
    (runEdits edits x).map Object.plain = (runEdits others y).map Object.plain := by
  induction h generalizing x y with
  | nil => exact congrArg some hxy
  | cons hedit hrest ih =>
    rename_i edit other edits others
    have hstep := hedit.apply hxy fun hx => (List.forall₂_cons.mp (happend hx)).1
    rw [runEdits, runEdits]
    cases hafter : edit.apply x with
    | none =>
      rw [hafter, Option.map_none, eq_comm, Option.map_eq_none_iff] at hstep
      rw [hstep]
      rfl
    | some after =>
      rw [hafter, Option.map_some, eq_comm, Option.map_eq_some_iff] at hstep
      obtain ⟨otherAfter, hother, hsame⟩ := hstep
      rw [hother]
      refine ih hsame.symm ?_
      rintro ⟨l, rfl⟩
      exact (List.forall₂_cons.mp (happend (Edit.exists_list_of_apply hafter))).2

/-- A view of objects that does not see what is called a list sees the same after alike runs
of edits. -/
theorem view_runEdits {α : Type} {see : Object → Option α}
    (hsee : ∀ x : Object, see x.plain = see x) {edits others : List Edit}
    (h : List.Forall₂ Edit.Alike edits others) {x y : Object} (hxy : x.plain = y.plain)
    (happend : (∃ l, x = .list l) →
      List.Forall₂ (fun edit other => edit.Appends → edit = other) edits others) :
    (runEdits edits x).bind see = (runEdits others y).bind see := by
  have hbind : ∀ found : Option Object, found.bind see = (found.map Object.plain).bind see := by
    intro found
    cases found with
    | none => rfl
    | some z => exact (hsee z).symm
  rw [hbind, runEdits_alike h hxy happend, ← hbind]

/-! ## The append to a list -/

/-- A list that is appended to a list becomes another tree than if it is called a tree. -/
theorem append_list_ne (l : ValueList) (q : Query) :
    toQuery (l.append (.list q)) ≠ toQuery (l.append (.query q)) := by
  intro h
  have hsegments : (l.items.push (toQuery (Group.mk (.query q))).asSegment).segments =
      (l.items.push q.asSegment).segments := congrArg Query.segments h
  rw [Builder.segments_push, Builder.segments_push] at hsegments
  have hlast := List.singleton_injective (List.append_cancel_left hsegments)
  -- A tree would be its own group, which has more segments at every depth.
  have hself : [.literal "(", .subtree q.segments, .literal ")"] = q.segments :=
    Segment.subtree.inj hlast
  have hsize := congrArg sizeOf hself
  simp only [List.cons.sizeOf_spec, Segment.subtree.sizeOf_spec] at hsize
  omega

/-! ## All uses -/

/-- Every object that stands for a query contributes one tree to other trees: its query, and
for a condition of several members the query between parentheses.  The four conversions
contribute it to a builder, a group, a condition, a filter, every clause of a statement and
a woven template, and so do the names of the object in a template, borrowed or not.

Whether an item is called a list is not seen by what is made from it: groups of the item
stand for one query, and alike runs of edits, which are all that a script does to an object,
end in objects that are one query, one item and one argument.  Only what is appended to a
list has to be the same, and an append to a list does see the name. -/
theorem objects_are_spliced_alike :
    (∀ (x : Object) (q : Query), x.query? = some q →
      ∃ e, x.entries? = some e ∧ e.Contribute (x.spliced q).asSegment ∧
        x.item? = some e.item ∧ x.item? = some e.borrowedItem ∧
        x.argument? = some e.argument ∧ x.argument? = some e.borrowedArgument ∧
        ∀ (store : Store) (name : String), store.find? name = some x →
          evalAppend store (.arg (.name name)) = .ok (.arg e.argument) ∧
          evalAppend store (.arg (.borrowed name)) = .ok (.arg e.borrowedArgument)) ∧
    (∀ (store : Store) (change : Change) (apply : Object → Option Object),
      change.eval store = .ok apply → ∃ edit : Edit, edit.apply = apply) ∧
    (∀ item other : Item, item.plain = other.plain →
      (Object.group ⟨item⟩).plain = (Object.group ⟨other⟩).plain) ∧
    (∀ (x y : Object) (edits others : List Edit), x.plain = y.plain →
      List.Forall₂ Edit.Alike edits others →
      ((∃ l, x = .list l) →
        List.Forall₂ (fun edit other => edit.Appends → edit = other) edits others) →
      (runEdits edits x).bind Object.query? = (runEdits others y).bind Object.query? ∧
      (runEdits edits x).bind Object.item? = (runEdits others y).bind Object.item? ∧
      (runEdits edits x).bind Object.argument? = (runEdits others y).bind Object.argument?) ∧
    ∀ (l : ValueList) (q : Query),
      toQuery (l.append (.list q)) ≠ toQuery (l.append (.query q)) ∧
      ∀ inner : ValueList, toQuery inner = q →
        toQuery (l.nested inner) ≠ toQuery (l.append (.query q)) := by
  refine ⟨?entries, fun _ _ _ => Change.exists_edit, ?groups, ?runs, ?lists⟩
  case entries =>
    intro x q hq
    obtain ⟨e, he, hcontribute⟩ := Object.entries?_contribute hq
    obtain ⟨hitem, hborrowedItem, hargument, hborrowedArgument⟩ := Object.entries?_agree he
    refine ⟨e, he, hcontribute, hitem, hborrowedItem, hargument, hborrowedArgument, ?_⟩
    intro store name hname
    have hhole : ∀ {found : Argument}, x.argument? = some found →
        (store.get Object.argument? name).map Template.Append.arg = .ok (.arg found) := by
      intro found hfound
      simp only [Store.get, hname, hfound]
      rfl
    exact ⟨hhole hargument, hhole hborrowedArgument⟩
  case groups =>
    intro item other h
    exact congrArg (fun inner => Object.group ⟨inner⟩) h
  case runs =>
    intro x y edits others hxy h happend
    exact ⟨view_runEdits Object.query?_plain h hxy happend,
      view_runEdits Object.item?_plain h hxy happend,
      view_runEdits Object.argument?_plain h hxy happend⟩
  case lists =>
    intro l q
    refine ⟨append_list_ne l q, ?_⟩
    rintro inner rfl
    exact append_list_ne l (toQuery inner)

/-- A condition of two members, in four ways appended to a builder with a separator; a member
of it that is called a list or a tree; and the same tree appended to a list, where the two
differ. -/
theorem objects_are_spliced_alike_guarded :
    let c : Condition := (Condition.empty.and (.code "x")).or (.code "y")
    let b : Builder := (Builder.joined ", ").raw (.code "a")
    let guarded : Segment := .subtree
      [.literal "(", .subtree [.literal "x", .literal " OR ", .literal "y"], .literal ")"]
    let way : Change := .connect .and (.code "z")
    (∃ e, (Object.condition c).entries? = some e ∧
      b.raw e.item = b.push guarded ∧ b.raw e.borrowedItem = b.push guarded ∧
      b.arg e.argument = b.push guarded ∧ b.arg e.borrowedArgument = b.push guarded) ∧
    (runEdits [.item way (.list (.raw "z"))] (.condition c)).bind Object.query? =
      (runEdits [.item way (.query (.raw "z"))] (.condition c)).bind Object.query? ∧
    toQuery (ValueList.empty.append (.list (.raw "z"))) ≠
      toQuery (ValueList.empty.append (.query (.raw "z"))) := by
  intro c b guarded way
  obtain ⟨hentries, -, -, hruns, hlists⟩ := objects_are_spliced_alike
  refine ⟨?ways, ?member, (hlists .empty (.raw "z")).1⟩
  case ways =>
    obtain ⟨e, he, hcontribute, -⟩ := hentries (.condition c) c.bare rfl
    exact ⟨e, he, hcontribute.item.raw b, hcontribute.borrowedItem.raw b,
      hcontribute.argument.arg b, hcontribute.borrowedArgument.arg b⟩
  case member =>
    have halike : List.Forall₂ Edit.Alike [.item way (.list (.raw "z"))]
        [.item way (.query (.raw "z"))] := .cons (.item rfl rfl) .nil
    exact (hruns _ _ _ _ rfl halike fun ⟨l, hl⟩ => nomatch hl).1

end SqlFragments.Script
