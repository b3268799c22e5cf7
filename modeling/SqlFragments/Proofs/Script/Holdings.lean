import Mathlib.Logic.Function.Basic
import SqlFragments.Proofs.Clause.Values
import SqlFragments.Proofs.Script.OpenSteps

/-!
# What objects hold

Which scalars an object holds can be told from the steps alone: a change puts scalars at one
place of one object, after those that are there or instead of them, and a new object holds
those of its parts.  Following the steps in this way builds no tree and looks at no code.

What is found is right.  After a run every object has in its tree the values of the positions
that were followed to it, place by place, and it stands for a query when it was said to.

Main results:

- `OpenStep.track`: what every name holds after a step.
- `Object.values_query?`: the values of a query are what its object holds.
- `Store.Holds.step`, `Store.Holds.run`: objects hold what is tracked.
-/

namespace SqlFragments.Script

/-! ## Places -/

/-- The places of an object at which scalars stand.  A statement has a place for each clause,
conditions and filters have members only, and all other objects are body. -/
inductive Place where
  | body
  | column
  | source
  | join
  | member
  | grouping
  | ordering
  | limit
  | offset
deriving DecidableEq

/-- All places, in the order in which they are written. -/
def Place.inOrder : List Place :=
  [.body, .column, .source, .join, .member, .grouping, .ordering, .limit, .offset]

/-- What an object holds. -/
structure Holding (α : Type) where
  /-- Whether the object stands for a query. -/
  isQuery : Bool
  /-- What stands at each place. -/
  held : Place → List α

namespace Holding

variable {α β : Type}

/-- What a name without an object holds, and an object that holds no scalars and stands for
no query. -/
def nothing : Holding α := ⟨false, fun _ => []⟩

/-- What a query holds that has its scalars at one place. -/
def only (place : Place) (given : List α) : Holding α :=
  ⟨true, Function.update (fun _ => []) place given⟩

/-- What a query without scalars holds. -/
def unfilled : Holding α := ⟨true, fun _ => []⟩

/-- What is held after more has been given for a place, in addition or instead. -/
def put (h : Holding α) (place : Place) (overwrites : Bool) (given : List α) : Holding α :=
  ⟨h.isQuery,
    Function.update h.held place (if overwrites then given else h.held place ++ given)⟩

/-- Everything held, place after place. -/
def all (h : Holding α) : List α := Place.inOrder.flatMap h.held

/-- What is held, each changed alike. -/
def map (f : α → β) (h : Holding α) : Holding β := ⟨h.isQuery, fun place => (h.held place).map f⟩

@[simp]
theorem isQuery_map (f : α → β) (h : Holding α) : (h.map f).isQuery = h.isQuery := rfl

@[simp]
theorem only_nil (place : Place) : (only place [] : Holding α) = unfilled :=
  congrArg (Holding.mk true) (Function.update_eq_self place fun _ => [])

@[simp]
theorem all_only (place : Place) (given : List α) : (only place given).all = given := by
  cases place <;> simp [all, only, Place.inOrder]

/-- More that is given for the one place of a query comes after what is there. -/
theorem only_eq_put {place : Place} {before given after : List α} (h : after = before ++ given) :
    only place after = (only place before).put place false given := by
  simp [h, only, put]

/-- What a place is given is changed with the place. -/
theorem map_mk_update (f : α → β) (isQuery : Bool) (held : Place → List α) (place : Place)
    (given : List α) :
    map f ⟨isQuery, Function.update held place given⟩ =
      ⟨isQuery, Function.update (fun place => (held place).map f) place (given.map f)⟩ :=
  congrArg (Holding.mk isQuery) (Function.comp_update (List.map f) held place given)

@[simp]
theorem map_only (f : α → β) (place : Place) (given : List α) :
    (only place given).map f = only place (given.map f) :=
  map_mk_update f true _ place given

@[simp]
theorem map_put (f : α → β) (h : Holding α) (place : Place) (overwrites : Bool)
    (given : List α) :
    (h.put place overwrites given).map f = (h.map f).put place overwrites (given.map f) := by
  rw [put, map_mk_update]
  cases overwrites <;> simp [put, map]

@[simp]
theorem all_map (f : α → β) (h : Holding α) : (h.map f).all = h.all.map f := by
  simp [all, map, List.map_flatMap]

end Holding

/-! ## Scalars along a script -/

section Track

variable {σ : Type} (env : String → Holding σ)

/-- The scalars of an item. -/
def ItemSource.given : ItemSource → List σ
  | .code _ => []
  | .object name => (env name).all
  | .query name => (env name).all
  | .list name => (env name).all

/-- The scalars of an argument. -/
def OpenArgument.given : OpenArgument σ → List σ
  | .scalar position => [position]
  | .object name => (env name).all
  | .query name => (env name).all

/-- The scalars of an append of a template. -/
def OpenExpression.given : Template.Append (OpenExpression σ) → List σ
  | .code _ => []
  | .arg (.scalar position) => [position]
  | .arg (.name other) => (env other).all
  | .arg (.borrowed other) => (env other).all

/-- The scalars of a predicate. -/
def OpenPredicate.given : OpenPredicate σ → List σ
  | .compare _ position => [position]
  | .isNull => []
  | .isNotNull => []
  | .inList positions => positions
  | .notIn positions => positions
  | .between low high => [low, high]

/-- What a new object holds, given what every name holds. -/
def OpenConstruction.holding : OpenConstruction σ → Holding σ
  | .scalar position => .put .nothing .body false [position]
  | .emptyQuery => .unfilled
  | .code _ => .unfilled
  | .bound position => .only .body [position]
  | .builder _ => .unfilled
  | .list positions => .only .body positions
  | .condition => .unfilled
  | .filter => .unfilled
  | .select => .unfilled
  | .compiler _ => .nothing
  | .identifier _ => .nothing
  | .quotedIdentifier _ => .nothing
  | .copy name => env name
  | .query name => .only .body (env name).all
  | .built name => .only .body (env name).all
  | .weave _ args => .only .body (args.flatMap (OpenArgument.given env))
  | .template appends => .only .body (appends.flatMap (OpenExpression.given env))
  | .group item => .only .body (item.given env)
  | .parenthesized name => .only .body (env name).all
  | .predicate _ p => .only .body p.given

/-- The scalars that a change gives to an object. -/
def OpenChange.given : OpenChange σ → List σ
  | .raw item => item.given env
  | .rawAll items => items.flatMap (ItemSource.given env)
  | .value position => [position]
  | .argument arg => arg.given env
  | .nested name => (env name).all
  | .connect _ item => item.given env
  | .column item => item.given env
  | .source item => item.given env
  | .join item => item.given env
  | .groupBy item => item.given env
  | .orderBy item => item.given env
  | .limit position => [position]
  | .offset position => [position]

/-- The place that a change gives scalars to. -/
def OpenChange.place : OpenChange σ → Place
  | .connect _ _ => .member
  | .column _ => .column
  | .source _ => .source
  | .join _ => .join
  | .groupBy _ => .grouping
  | .orderBy _ => .ordering
  | .limit _ => .limit
  | .offset _ => .offset
  | _ => .body

/-- Whether a change takes away what its place held: there is one source, one limit and one
offset. -/
def OpenChange.overwrites : OpenChange σ → Bool
  | .source _ => true
  | .limit _ => true
  | .offset _ => true
  | _ => false

/-- What every name holds after a step. -/
def OpenStep.track : OpenStep σ → String → Holding σ
  | .make name construction => Function.update env name (construction.holding env)
  | .change name edit =>
    Function.update env name ((env name).put edit.place edit.overwrites (edit.given env))

/-- What every name holds after a script that starts without objects. -/
def holdings (program : List (OpenStep σ)) : String → Holding σ :=
  program.foldl OpenStep.track fun _ => .nothing

end Track

/-! ## What objects hold -/

/-- The values of a statement, clause by clause. -/
def Holding.ofSelect (s : Select) : Holding Value where
  isQuery := true
  held
    | .body => []
    | .column => s.columns.flatMap fun item => item.segment.values
    | .source => s.source.toList.flatMap fun item => item.segment.values
    | .join => s.joins.flatMap fun item => item.segment.values
    | .member => (toQuery s.filter).values
    | .grouping => s.groupings.flatMap fun item => item.segment.values
    | .ordering => s.orderings.flatMap fun item => item.segment.values
    | .limit => s.limit.toList
    | .offset => s.offset.toList

namespace Object

/-- The values of an object, place by place. -/
def holding : Object → Holding Value
  | .query q => .only .body q.values
  | .builder b => .only .body (toQuery b).values
  | .group g => .only .body (toQuery g).values
  | .list l => .only .body (toQuery l).values
  | .condition c => .only .member (toQuery c).values
  | .filter f => .only .member (toQuery f).values
  | .select s => .ofSelect s
  | .identifier _ => .nothing
  | .value v => .put .nothing .body false [v]
  | .compiler _ => .nothing

/-- What an object holds tells whether it is a query. -/
theorem isQuery_holding (x : Object) : x.holding.isQuery = x.query?.isSome := by
  cases x <;> rfl

/-- What a statement holds is what its query binds, place after place. -/
theorem all_ofSelect (s : Select) : (Holding.ofSelect s).all = (toQuery s).values := by
  rw [s.values_toQuery]
  simp [Holding.all, Holding.ofSelect, Place.inOrder, Filter.values_toQuery]

/-- The values of a query are what its object holds. -/
theorem values_query? {x : Object} {q : Query} (h : x.query? = some q) :
    q.values = x.holding.all := by
  cases x with
  | select s => exact Option.some.inj h ▸ (all_ofSelect s).symm
  | identifier i => cases h
  | value v => cases h
  | compiler c => cases h
  | _ => exact Option.some.inj h ▸ (Holding.all_only _ _).symm

/-- The values of an item are what its object holds, between parentheses or not. -/
theorem values_item? {x : Object} {item : Item} (h : x.item? = some item) :
    item.segment.values = x.holding.all := by
  cases x with
  | condition c => exact Option.some.inj h ▸ c.values_guarded.trans (Holding.all_only _ _).symm
  | select s => exact Option.some.inj h ▸ (all_ofSelect s).symm
  | identifier i => exact Option.some.inj h ▸ rfl
  | value v => cases h
  | compiler c => cases h
  | _ => exact Option.some.inj h ▸ (Holding.all_only _ _).symm

/-- The values of an argument are what its object holds. -/
theorem values_argument? {x : Object} {argument : Argument} (h : x.argument? = some argument) :
    argument.segment.values = x.holding.all := by
  cases x with
  | condition c => exact Option.some.inj h ▸ c.values_guarded.trans (Holding.all_only _ _).symm
  | select s => exact Option.some.inj h ▸ (all_ofSelect s).symm
  | identifier i => cases h
  | value v => exact Option.some.inj h ▸ rfl
  | compiler c => cases h
  | _ => exact Option.some.inj h ▸ (Holding.all_only _ _).symm

/-- The values of a builder are what its object holds. -/
theorem values_builder? {x : Object} {b : Builder} (h : x.builder? = some b) :
    b.build.values = x.holding.all := by
  cases x with
  | builder b => exact Option.some.inj h ▸ (Holding.all_only _ _).symm
  | _ => cases h

/-- The values of a list are what its object holds. -/
theorem values_list? {x : Object} {l : ValueList} (h : x.list? = some l) :
    (toQuery l).values = x.holding.all := by
  cases x with
  | list l => exact Option.some.inj h ▸ (Holding.all_only _ _).symm
  | _ => cases h

end Object

/-- What the object under a name holds. -/
def Store.holding (store : Store) (name : String) : Holding Value :=
  (store.find? name).elim .nothing Object.holding

/-- A name holds what its object does. -/
theorem Store.holding_of_find? {store : Store} {name : String} {x : Object}
    (h : store.find? name = some x) : store.holding name = x.holding := by
  rw [holding, h]
  rfl

/-- Storing an object changes what its name holds and nothing else. -/
theorem Store.holding_put (store : Store) (name : String) (x : Object) :
    (store.put name x).holding = Function.update store.holding name x.holding := by
  funext other
  rw [holding, find?_put, Function.update_apply]
  split <;> rfl

/-- An object is got from a store when its name has one of this sort. -/
theorem Store.get_eq_ok {α : Type} {store : Store} {see : Object → Option α} {name : String}
    {v : α} (h : store.get see name = .ok v) :
    ∃ x, store.find? name = some x ∧ see x = some v := by
  unfold get at h
  cases hfind : store.find? name with
  | none =>
    rw [hfind] at h
    cases h
  | some x =>
    rw [hfind] at h
    refine ⟨x, rfl, ?_⟩
    cases hsee : see x with
    | none => simp [hsee] at h
    | some found =>
      simp only [hsee, Option.elim_some, Except.ok.injEq] at h
      rw [h]

/-! ## Steps -/

section Steps

variable {σ : Type} {a : σ → Value} {env : String → Holding σ} {store : Store}

/-- The objects of a store hold the values that an assignment gives to tracked positions. -/
def Store.Holds (store : Store) (a : σ → Value) (env : String → Holding σ) : Prop :=
  ∀ name, store.holding name = (env name).map a

namespace Store.Holds

variable (h : store.Holds a env)

include h

/-- What is seen of an object has the values of the object. -/
theorem get {α : Type} {see : Object → Option α} {values : α → List Value}
    (hsee : ∀ {x v}, see x = some v → values v = x.holding.all) {name : String} {v : α}
    (hget : store.get see name = .ok v) : values v = (env name).all.map a := by
  obtain ⟨x, hfind, hv⟩ := Store.get_eq_ok hget
  rw [hsee hv, ← Store.holding_of_find? hfind, h name, Holding.all_map]

/-- An item binds what is tracked for its source, filled. -/
theorem item {source : ItemSource} {item : Item} (heval : source.eval store = .ok item) :
    item.segment.values = (source.given env).map a := by
  cases source with
  | code text => exact Except.ok.inj heval ▸ rfl
  | object name => exact h.get Object.values_item? heval
  | query name =>
    obtain ⟨q, hq, rfl⟩ := Template.map_eq_ok heval
    exact h.get Object.values_query? hq
  | list name =>
    obtain ⟨q, hq, rfl⟩ := Template.map_eq_ok heval
    exact h.get Object.values_query? hq

/-- An argument binds what is tracked for it, filled. -/
theorem argument {source : OpenArgument σ} {argument : Argument}
    (heval : (source.fill a).eval store = .ok argument) :
    argument.segment.values = (source.given env).map a := by
  cases source with
  | scalar position => exact Except.ok.inj heval ▸ rfl
  | object name => exact h.get Object.values_argument? heval
  | query name =>
    obtain ⟨q, hq, rfl⟩ := Template.map_eq_ok heval
    exact h.get Object.values_query? hq

/-- An append of a template binds what is tracked for its expression, filled. -/
theorem append {append : Template.Append (OpenExpression σ)} {computed : Template.Append Argument}
    (heval : evalAppend store (OpenExpression.fillAppend a append) = .ok computed) :
    computed.segment.values = (OpenExpression.given env append).map a := by
  cases append with
  | code text => exact Except.ok.inj heval ▸ rfl
  | arg e =>
    obtain ⟨argument, hargument, rfl⟩ := Template.map_eq_ok heval
    cases e with
    | scalar position => exact Except.ok.inj hargument ▸ rfl
    | name other => exact h.get Object.values_argument? hargument
    | borrowed other => exact h.get Object.values_argument? hargument

end Store.Holds

/-- A computation in two steps succeeds when both do. -/
theorem bind_eq_ok {ε α β : Type} {x : Except ε α} {f : α → Except ε β} {b : β}
    (h : x >>= f = .ok b) : ∃ v, x = .ok v ∧ f v = .ok b := by
  cases x with
  | error e => cases h
  | ok v => exact ⟨v, rfl, h⟩

/-- Changing the error does not change the successes. -/
theorem mapError_eq_ok {ε δ β : Type} {x : Except ε β} {f : ε → δ} {b : β}
    (h : x.mapError f = .ok b) : x = .ok b := by
  cases x with
  | error e => cases h
  | ok v => exact congrArg Except.ok (Except.ok.inj h)

/-- The values of what is computed for a list are those of its members, if that is so for each
member. -/
theorem flatMap_values_of_mapM {α β : Type} {compute : α → Except Failure β}
    {values : β → List Value} {given : α → List σ}
    (h : ∀ {x y}, compute x = .ok y → values y = (given x).map a) {xs : List α} {ys : List β}
    (hall : xs.mapM compute = .ok ys) : ys.flatMap values = (xs.flatMap given).map a := by
  induction xs generalizing ys with
  | nil => exact Except.ok.inj hall ▸ rfl
  | cons x xs ih =>
    rw [List.mapM_cons] at hall
    obtain ⟨y, hy, hrest⟩ := bind_eq_ok hall
    obtain ⟨others, hothers, hcons⟩ := bind_eq_ok hrest
    rw [← Except.ok.inj hcons, List.flatMap_cons, List.flatMap_cons, List.map_append, h hy,
      ih hothers]

/-- The values of a predicate are those of its positions. -/
theorem OpenPredicate.values_query (column : Identifier) (p : OpenPredicate σ) :
    ((p.fill a).query column).values = p.given.map a := by
  rw [Query.values, Predicate.values_query]
  cases p <;> rfl

/-- A query that binds scalars holds them. -/
theorem Object.holding_query {q : Query} {given : List σ} (h : q.values = given.map a) :
    (Object.query q).holding = (Holding.only .body given).map a := by
  rw [holding, h, Holding.map_only]

/-- A group whose query binds scalars holds them. -/
theorem Object.holding_group {g : Group} {given : List σ}
    (h : g.inner.segment.values = given.map a) :
    (Object.group g).holding = (Holding.only .body given).map a := by
  rw [holding, Group.values_toQuery, h, Holding.map_only]

/-- A new object holds what is tracked. -/
theorem OpenConstruction.holding_eval (h : store.Holds a env) {construction : OpenConstruction σ}
    {x : Object} (heval : (construction.fill a).eval store = .ok x) :
    x.holding = (construction.holding env).map a := by
  cases construction with
  | scalar position =>
    rw [← Except.ok.inj heval, holding, Holding.map_put]
    rfl
  | bound position => exact Except.ok.inj heval ▸ Object.holding_query rfl
  | list positions =>
    rw [← Except.ok.inj heval, Object.holding, ValueList.values_ofValues, holding, Holding.map_only]
  | emptyQuery | code text | builder join | condition | filter =>
    exact Except.ok.inj heval ▸ Holding.only_nil _
  | select =>
    rw [← Except.ok.inj heval]
    apply congrArg (Holding.mk true)
    funext place
    cases place <;> rfl
  | compiler c => exact Except.ok.inj heval ▸ rfl
  | identifier text | quotedIdentifier name =>
    obtain ⟨i, -, rfl⟩ := Template.map_eq_ok heval
    rfl
  | copy name =>
    obtain ⟨y, hfind, hy⟩ := Store.get_eq_ok heval
    rw [holding, ← h name, Store.holding_of_find? hfind, ← Option.some.inj hy]
  | query name =>
    obtain ⟨q, hq, rfl⟩ := Template.map_eq_ok heval
    exact Object.holding_query (h.get Object.values_query? hq)
  | built name =>
    obtain ⟨b, hb, rfl⟩ := Template.map_eq_ok heval
    exact Object.holding_query (h.get Object.values_builder? hb)
  | weave chunks args =>
    obtain ⟨computed, hargs, hrest⟩ := bind_eq_ok heval
    obtain ⟨q, hq, hx⟩ := bind_eq_ok hrest
    obtain ⟨hlength, rfl⟩ := Template.weave_eq_ok_iff.mp (mapError_eq_ok hq)
    rw [List.mapM_map] at hargs
    rw [← Except.ok.inj hx]
    apply Object.holding_query
    rw [Template.values_weaveSegments hlength]
    exact flatMap_values_of_mapM h.argument hargs
  | template appends =>
    obtain ⟨q, hq, rfl⟩ := Template.map_eq_ok heval
    obtain ⟨computed, happends, rfl⟩ := Template.map_eq_ok hq
    rw [List.mapM_map] at happends
    apply Object.holding_query
    rw [Template.build, Query.values_mk, List.flatMap_map]
    exact flatMap_values_of_mapM h.append happends
  | group item =>
    obtain ⟨found, hfound, rfl⟩ := Template.map_eq_ok heval
    exact Object.holding_group (h.item hfound)
  | parenthesized name =>
    obtain ⟨l, hl, rfl⟩ := Template.map_eq_ok heval
    exact Object.holding_group (h.get Object.values_list? hl)
  | predicate column p =>
    obtain ⟨i, -, rfl⟩ := Template.map_eq_ok heval
    exact Object.holding_query (p.values_query i)

/-- An item goes to the place of the change that adds it. -/
theorem OpenChange.holding_applyItem (edit : OpenChange σ) {item : Item} {x changed : Object}
    (happly : (edit.fill a).applyItem item x = some changed) :
    changed.holding = x.holding.put edit.place edit.overwrites item.segment.values := by
  cases x with
  | builder b =>
    cases edit with
    | raw source =>
      rw [← Option.some.inj happly]
      exact Holding.only_eq_put (b.values_push item.segment)
    | _ => cases happly
  | list l =>
    cases edit with
    | raw source =>
      rw [← Option.some.inj happly]
      exact Holding.only_eq_put (l.values_append item)
    | _ => cases happly
  | condition c =>
    cases edit with
    | connect connective source =>
      rw [← Option.some.inj happly]
      exact Holding.only_eq_put (c.values_add connective item)
    | _ => cases happly
  | filter f =>
    cases edit with
    | connect connective source =>
      cases connective with
      | and =>
        rw [← Option.some.inj happly]
        exact Holding.only_eq_put (f.values_and item)
      | or =>
        rw [← Option.some.inj happly]
        exact Holding.only_eq_put (f.values_or item)
    | _ => cases happly
  | select s =>
    cases edit with
    | connect connective source =>
      cases connective with
      | and =>
        rw [← Option.some.inj happly]
        apply congrArg (Holding.mk true)
        funext place
        cases place <;>
          simp [Holding.ofSelect, Select.andWhere, Object.holding, place, overwrites,
            Filter.values_and]
      | or =>
        rw [← Option.some.inj happly]
        apply congrArg (Holding.mk true)
        funext place
        cases place <;>
          simp [Holding.ofSelect, Select.orWhere, Object.holding, place, overwrites,
            Filter.values_or]
    | column source | source source | join source | groupBy source | orderBy source =>
      rw [← Option.some.inj happly]
      apply congrArg (Holding.mk true)
      funext place
      cases place <;>
        simp [Holding.ofSelect, Select.column, Select.withSource, Select.join, Select.groupBy,
          Select.orderBy, Object.holding, OpenChange.place, overwrites]
    | _ => cases happly
  | _ => cases happly

/-- A value goes to the place of the change that adds it. -/
theorem OpenChange.holding_applyValue (edit : OpenChange σ) {v : Value} {x changed : Object}
    (happly : (edit.fill a).applyValue v x = some changed) :
    changed.holding = x.holding.put edit.place edit.overwrites [v] := by
  cases x with
  | builder b =>
    cases edit with
    | value position =>
      rw [← Option.some.inj happly]
      exact Holding.only_eq_put (b.values_push (.value v))
    | _ => cases happly
  | list l =>
    cases edit with
    | value position =>
      rw [← Option.some.inj happly]
      exact Holding.only_eq_put (l.items.values_push (.value v))
    | _ => cases happly
  | select s =>
    cases edit with
    | limit position | offset position =>
      rw [← Option.some.inj happly]
      apply congrArg (Holding.mk true)
      funext place
      cases place <;>
        simp [Holding.ofSelect, Select.limitTo, Select.offsetBy, Object.holding, OpenChange.place,
          overwrites]
    | _ => cases happly
  | _ => cases happly

/-- A changed object holds what is tracked. -/
theorem OpenChange.holding_eval (h : store.Holds a env) {edit : OpenChange σ}
    {apply : Object → Option Object} (heval : (edit.fill a).eval store = .ok apply)
    {x changed : Object} (happly : apply x = some changed) :
    changed.holding = x.holding.put edit.place edit.overwrites ((edit.given env).map a) := by
  cases edit with
  | raw source | column source | source source | join source | groupBy source | orderBy source =>
    obtain ⟨item, hitem, rfl⟩ := Template.map_eq_ok heval
    exact h.item hitem ▸ holding_applyItem _ happly
  | connect connective source =>
    obtain ⟨item, hitem, rfl⟩ := Template.map_eq_ok heval
    exact h.item hitem ▸ holding_applyItem _ happly
  | value position =>
    cases heval
    exact holding_applyValue (.value position) happly
  | limit position =>
    cases heval
    exact holding_applyValue (.limit position) happly
  | offset position =>
    cases heval
    exact holding_applyValue (.offset position) happly
  | rawAll sources =>
    obtain ⟨items, hitems, rfl⟩ := Template.map_eq_ok heval
    have hvalues := flatMap_values_of_mapM h.item hitems
    cases x with
    | builder b =>
      rw [← Option.some.inj happly, given, ← hvalues]
      exact Holding.only_eq_put (b.values_rawAll items)
    | _ => cases happly
  | argument source =>
    obtain ⟨argument, hargument, rfl⟩ := Template.map_eq_ok heval
    cases x with
    | builder b =>
      rw [← Option.some.inj happly, given, ← h.argument hargument]
      exact Holding.only_eq_put (b.values_push argument.segment)
    | _ => cases happly
  | nested name =>
    obtain ⟨inner, hinner, rfl⟩ := Template.map_eq_ok heval
    cases x with
    | list l =>
      rw [← Option.some.inj happly, given, ← h.get Object.values_list? hinner]
      exact Holding.only_eq_put (l.values_append (toItem inner))
    | _ => cases happly

/-! ## Runs -/

/-- After a step that does not fail, every name holds what is tracked. -/
theorem Store.Holds.step (h : store.Holds a env) {step : OpenStep σ} {after : Store}
    (hrun : (step.fill a).run store = .ok after) : after.Holds a (step.track env) := by
  have hput : ∀ {name : String} {x : Object} {held : Holding σ}, x.holding = held.map a →
      (store.put name x).Holds a (Function.update env name held) := by
    intro name x held hx other
    rw [Store.holding_put, Function.update_apply, Function.update_apply]
    split
    · exact hx
    · exact h other
  cases step with
  | make name construction =>
    obtain ⟨x, hx, rfl⟩ := Template.map_eq_ok hrun
    exact hput (OpenConstruction.holding_eval h hx)
  | change name edit =>
    rw [OpenStep.fill, Step.run_change] at hrun
    obtain ⟨changed, hchanged, rfl⟩ := Template.map_eq_ok hrun
    obtain ⟨apply, heval, hget⟩ := bind_eq_ok hchanged
    obtain ⟨x, hfind, happly⟩ := Store.get_eq_ok hget
    apply hput
    rw [OpenChange.holding_eval h heval happly, ← Store.holding_of_find? hfind, h name,
      Holding.map_put]

/-- A store without objects holds nothing. -/
theorem Store.holds_empty (a : σ → Value) : Store.empty.Holds a fun _ => .nothing :=
  fun _ => rfl

/-- A step that does not fail puts an object under its name. -/
theorem Step.exists_put {step : Step} {after : Store} (hrun : step.run store = .ok after) :
    ∃ x, after = store.put step.name x := by
  cases step with
  | make name construction =>
    obtain ⟨x, -, rfl⟩ := Template.map_eq_ok hrun
    exact ⟨x, rfl⟩
  | change name edit =>
    rw [run_change] at hrun
    obtain ⟨x, -, rfl⟩ := Template.map_eq_ok hrun
    exact ⟨x, rfl⟩

/-- The store after all steps, or the first failure. -/
def runAll (store : Store) (steps : List Step) : Except Failure Store :=
  steps.foldlM Step.run store

/-- After a run that does not fail, every name holds what is tracked. -/
theorem Store.Holds.run (h : store.Holds a env) {program : List (OpenStep σ)} {after : Store}
    (hrun : runAll store (program.map (OpenStep.fill a)) = .ok after) :
    after.Holds a (program.foldl OpenStep.track env) := by
  induction program generalizing env store with
  | nil => exact Except.ok.inj hrun ▸ h
  | cons step program ih =>
    rw [List.map_cons, runAll, List.foldlM_cons] at hrun
    obtain ⟨next, hstep, hrest⟩ := bind_eq_ok hrun
    exact ih (h.step hstep) hrest

/-- After a whole script that does not fail, every name holds what is tracked. -/
theorem Store.holds_of_runAll {program : List (OpenStep σ)} {after : Store}
    (hrun : runAll .empty (program.map (OpenStep.fill a)) = .ok after) :
    after.Holds a (holdings program) :=
  (holds_empty a).run hrun

/-- After a run that does not fail, the names with an object are those of its steps. -/
theorem isSome_find?_run {steps : List Step} {after : Store} (hrun : runAll store steps = .ok after)
    (name : String) :
    (after.find? name).isSome = true ↔
      (store.find? name).isSome = true ∨ name ∈ steps.map Step.name := by
  induction steps generalizing store with
  | nil => simp [← Except.ok.inj hrun]
  | cons step steps ih =>
    rw [runAll, List.foldlM_cons] at hrun
    obtain ⟨next, hstep, hrest⟩ := bind_eq_ok hrun
    obtain ⟨x, rfl⟩ := Step.exists_put hstep
    rw [ih hrest, Store.find?_put, List.map_cons, List.mem_cons]
    split <;> simp_all

/-- The query of the object under a name. -/
def Store.query? (store : Store) (name : String) : Option Query :=
  (store.find? name).bind Object.query?

/-- What is tracked says which names have a query. -/
theorem Store.Holds.isSome_query? (h : store.Holds a env) (name : String) :
    (store.query? name).isSome = (env name).isQuery := by
  have hholding := congrArg Holding.isQuery (h name)
  rw [Holding.isQuery_map] at hholding
  rw [← hholding, query?, Store.holding]
  cases store.find? name with
  | none => rfl
  | some x => exact x.isQuery_holding.symm

/-- The values of a query are those of the tracked positions. -/
theorem Store.Holds.values_query (h : store.Holds a env) {name : String} {q : Query}
    (hquery : store.query? name = some q) :
    Leaf.values q.leaves = (env name).all.map a := by
  obtain ⟨x, hfind, hx⟩ := Option.bind_eq_some_iff.mp hquery
  rw [← Holding.all_map, ← h name, Store.holding_of_find? hfind]
  exact Object.values_query? hx

end Steps

end SqlFragments.Script
