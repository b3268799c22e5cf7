import SqlFragments.Script.Object
import SqlFragments.Template.Expand
import SqlFragments.Template.Expression
import SqlFragments.Template.Weave

/-!
# Steps of a script

A step makes a new object from objects that have names, or changes an object that
has one.  A step that fails changes nothing, and the names are independent: a copy
does not follow later changes of what it was copied from.

Main results:

- `Store.find?_put`: what a name stands for after an object has been put under one.
- `Step.runOrKeep_error`: a step that fails changes nothing.
-/

namespace SqlFragments.Script

/-! ## Names -/

/-- The objects of a script by name. -/
structure Store where
  entries : List (String × Object)

namespace Store

/-- The store without objects. -/
def empty : Store := ⟨[]⟩

/-- The object under a name. -/
def find? (store : Store) (name : String) : Option Object :=
  (store.entries.find? (·.1 == name)).map (·.2)

/-- Puts an object under a name, in the place of an earlier one. -/
def put (store : Store) (name : String) (x : Object) : Store :=
  ⟨(name, x) :: store.entries.filter (·.1 != name)⟩

@[simp]
theorem find?_put_self (store : Store) (name : String) (x : Object) :
    (store.put name x).find? name = some x := by
  simp [find?, put]

/-- Removing the entries of one name leaves those of another. -/
theorem find?_filter_ne {entries : List (String × Object)} {name other : String}
    (h : other ≠ name) :
    (entries.filter (·.1 != name)).find? (·.1 == other) = entries.find? (·.1 == other) := by
  induction entries with
  | nil => rfl
  | cons entry entries ih =>
    by_cases hname : entry.1 = name
    · have hother : name ≠ other := fun heq => h heq.symm
      simp [hname, ih, hother]
    · simp [hname, List.find?_cons, ih]

/-- What a name stands for after an object has been put under one. -/
theorem find?_put (store : Store) (name other : String) (x : Object) :
    (store.put name x).find? other = if other = name then some x else store.find? other := by
  split
  · rename_i h
    rw [h, find?_put_self]
  · rename_i h
    have hne : name ≠ other := fun heq => h heq.symm
    simp [find?, put, hne, find?_filter_ne h]

end Store

/-- Why a step fails. -/
inductive Failure where
  | invalid (e : Error)
  | template (fault : Template.Fault)
  /-- No object has the name. -/
  | unknown (name : String)
  /-- The object under the name is of a kind that the step cannot use. -/
  | unsuitable (name : String)
deriving DecidableEq, Repr

/-- The object under a name, seen in one way. -/
def Store.get {α : Type} (store : Store) (see : Object → Option α) (name : String) :
    Except Failure α :=
  match store.find? name with
  | none => .error (.unknown name)
  | some x => (see x).elim (.error (.unsuitable name)) .ok

/-! ## What steps use -/

/-- Where an item comes from. -/
inductive ItemSource where
  | code (text : String)
  /-- An object as an item. -/
  | object (name : String)
  /-- The query of an object. -/
  | query (name : String)
  /-- The query of an object, declared to be a list. -/
  | list (name : String)
deriving DecidableEq, Repr

/-- The item of a source. -/
def ItemSource.eval (store : Store) : ItemSource → Except Failure Item
  | .code text => .ok (.code text)
  | .object name => store.get Object.item? name
  | .query name => (store.get Object.query? name).map .query
  | .list name => (store.get Object.query? name).map .list

/-- Where an argument comes from. -/
inductive ArgumentSource where
  | value (v : Value)
  /-- An object as an argument. -/
  | object (name : String)
  /-- The query of an object. -/
  | query (name : String)
deriving DecidableEq, Repr

/-- The argument of a source. -/
def ArgumentSource.eval (store : Store) : ArgumentSource → Except Failure Argument
  | .value v => .ok (.value v)
  | .object name => store.get Object.argument? name
  | .query name => (store.get Object.query? name).map .query

/-- The argument of an expression in a template. -/
def evalExpression (store : Store) : Template.Expression → Except Failure Argument
  | .name name => store.get Object.argument? name
  | .borrowed name => store.get Object.argument? name
  | .literal v => .ok (.value v)

/-- An append with its expression computed. -/
def evalAppend (store : Store) :
    Template.Append Template.Expression → Except Failure (Template.Append Argument)
  | .code text => .ok (.code text)
  | .arg e => (evalExpression store e).map .arg

/-- Where the column of a predicate comes from. -/
inductive ColumnSource where
  | text (text : String)
  | identifier (name : String)
deriving DecidableEq, Repr

/-- An object as an identifier. -/
def Object.identifier? : Object → Option Identifier
  | .identifier i => some i
  | _ => none

/-- The column of a source. -/
def ColumnSource.eval (store : Store) : ColumnSource → Except Failure Identifier
  | .text column => (Identifier.parse column).mapError .invalid
  | .identifier name => store.get Object.identifier? name

/-- An object as a builder. -/
def Object.builder? : Object → Option Builder
  | .builder b => some b
  | _ => none

/-- An object as a list. -/
def Object.list? : Object → Option ValueList
  | .list l => some l
  | _ => none

/-! ## Making objects -/

/-- How a new object is made. -/
inductive Construction where
  | object (x : Object)
  | identifier (text : String)
  | quotedIdentifier (name : String)
  | copy (name : String)
  /-- The query that an object stands for. -/
  | query (name : String)
  /-- The query that a builder has built. -/
  | built (name : String)
  | weave (chunks : List String) (args : List ArgumentSource)
  /-- A template, with its arguments as expressions that are still to be read. -/
  | template (text : String) (args : List String)
  /-- A template that has been expanded, with its expressions still to be computed. -/
  | expanded (appends : List (Template.Append Template.Expression))
  | group (item : ItemSource)
  | parenthesized (name : String)
  | predicate (column : ColumnSource) (p : Predicate)

/-- The appends of a template, its expressions read but not yet computed. -/
def expandTemplate (text : String) (args : List String) :
    Except Failure (List (Template.Append Template.Expression)) := do
  let read := Template.readExpression
  let args ← args.mapM fun arg =>
    match read arg.toList with
    | some e => .ok e
    | none => .error (.template (.invalidExpression arg.toList))
  (Template.expand read text args).mapError .template

/-- The query of appends, their expressions computed from left to right. -/
def buildTemplate (store : Store) (appends : List (Template.Append Template.Expression)) :
    Except Failure Query :=
  (appends.mapM (evalAppend store)).map Template.build

/-- The object that a construction makes. -/
def Construction.eval (store : Store) : Construction → Except Failure Object
  | .object x => .ok x
  | .identifier text => ((Identifier.parse text).mapError .invalid).map .identifier
  | .quotedIdentifier name => ((Identifier.ofQuoted name).mapError .invalid).map .identifier
  | .copy name => store.get some name
  | .query name => (store.get Object.query? name).map .query
  | .built name => (store.get Object.builder? name).map (.query ·.build)
  | .weave chunks args => do
    let args ← args.mapM (ArgumentSource.eval store)
    return .query (← (Template.weave chunks args).mapError .invalid)
  | .template text args => do return .query (← buildTemplate store (← expandTemplate text args))
  | .expanded appends => (buildTemplate store appends).map .query
  | .group item => (item.eval store).map fun item => .group ⟨item⟩
  | .parenthesized name => (store.get Object.list? name).map (.group ·.parenthesized)
  | .predicate column p => (column.eval store).map fun column => .query (p.query column)

/-! ## Changing objects -/

/-- How an object is changed. -/
inductive Change where
  | raw (item : ItemSource)
  | rawAll (items : List ItemSource)
  | value (v : Value)
  | argument (arg : ArgumentSource)
  | nested (name : String)
  | connect (connective : Connective) (item : ItemSource)
  | column (item : ItemSource)
  | source (item : ItemSource)
  | join (item : ItemSource)
  | groupBy (item : ItemSource)
  | orderBy (item : ItemSource)
  | limit (v : Value)
  | offset (v : Value)

/-- An object after an item has been added in one way or another. -/
def Change.applyItem (change : Change) (item : Item) : Object → Option Object
  | .builder b =>
    match change with
    | .raw _ => some (.builder (b.raw item))
    | _ => none
  | .list l =>
    match change with
    | .raw _ => some (.list (l.append item))
    | _ => none
  | .condition c =>
    match change with
    | .connect connective _ => some (.condition (c.add connective item))
    | _ => none
  | .filter f =>
    match change with
    | .connect .and _ => some (.filter (f.and item))
    | .connect .or _ => some (.filter (f.or item))
    | _ => none
  | .select s =>
    match change with
    | .connect .and _ => some (.select (s.andWhere item))
    | .connect .or _ => some (.select (s.orWhere item))
    | .column _ => some (.select (s.column item))
    | .source _ => some (.select (s.withSource item))
    | .join _ => some (.select (s.join item))
    | .groupBy _ => some (.select (s.groupBy item))
    | .orderBy _ => some (.select (s.orderBy item))
    | _ => none
  | _ => none

/-- An object after a value has been added in one way or another. -/
def Change.applyValue (change : Change) (v : Value) : Object → Option Object
  | .builder b =>
    match change with
    | .value _ => some (.builder (b.value v))
    | _ => none
  | .list l =>
    match change with
    | .value _ => some (.list (l.value v))
    | _ => none
  | .select s =>
    match change with
    | .limit _ => some (.select (s.limitTo v))
    | .offset _ => some (.select (s.offsetBy v))
    | _ => none
  | _ => none

/-- A builder after items have been added in order. -/
def Change.applyItems (items : List Item) : Object → Option Object
  | .builder b => some (.builder (b.rawAll items))
  | _ => none

/-- A builder after an argument has been added. -/
def Change.applyArgument (arg : Argument) : Object → Option Object
  | .builder b => some (.builder (b.arg arg))
  | _ => none

/-- A list after another list has been added as one item. -/
def Change.applyList (inner : ValueList) : Object → Option Object
  | .list l => some (.list (l.nested inner))
  | _ => none

/-- The function on objects that a change stands for; it gives nothing for an object of
an unsuitable kind. -/
def Change.eval (store : Store) (change : Change) : Except Failure (Object → Option Object) :=
  match change with
  | .raw item => (item.eval store).map change.applyItem
  | .connect _ item => (item.eval store).map change.applyItem
  | .column item => (item.eval store).map change.applyItem
  | .source item => (item.eval store).map change.applyItem
  | .join item => (item.eval store).map change.applyItem
  | .groupBy item => (item.eval store).map change.applyItem
  | .orderBy item => (item.eval store).map change.applyItem
  | .value v => .ok (change.applyValue v)
  | .limit v => .ok (change.applyValue v)
  | .offset v => .ok (change.applyValue v)
  | .rawAll items => (items.mapM (ItemSource.eval store)).map applyItems
  | .argument arg => (arg.eval store).map applyArgument
  | .nested name => (store.get Object.list? name).map applyList

/-! ## Steps -/

/-- A step of a script: a new object under a name, or a change of the object under one. -/
inductive Step where
  | make (name : String) (construction : Construction)
  | change (name : String) (change : Change)

/-- The name whose object a step makes or changes. -/
def Step.name : Step → String
  | .make name _ => name
  | .change name _ => name

/-- The store after a step. -/
def Step.run (store : Store) : Step → Except Failure Store
  | .make name construction => (construction.eval store).map (store.put name)
  | .change name edit => do
    let apply ← edit.eval store
    let changed ← store.get apply name
    return store.put name changed

/-- An edit replaces the object under a name by the edited one. -/
theorem Step.run_change (store : Store) (name : String) (edit : Change) :
    (Step.change name edit).run store =
      (edit.eval store >>= fun apply => store.get apply name).map (store.put name) := by
  rw [Step.run]
  cases edit.eval store with
  | error failure => rfl
  | ok apply =>
    change (store.get apply name >>= fun changed => Except.ok (store.put name changed)) =
      (store.get apply name).map (store.put name)
    cases store.get apply name <;> rfl

/-- The store after a step, if the step fails or not. -/
def Step.runOrKeep (store : Store) (step : Step) : Store :=
  match step.run store with
  | .ok after => after
  | .error _ => store

/-- A step that fails changes nothing. -/
theorem Step.runOrKeep_error {store : Store} {step : Step} {failure : Failure}
    (h : step.run store = .error failure) : step.runOrKeep store = store := by
  simp [runOrKeep, h]

end SqlFragments.Script
