import SqlFragments.Proofs.Script.Holdings
import SqlFragments.Proofs.Script.Substitution

/-!
# Code and data apart

Running a script commutes with a change of the values, step by step, so the scalars that fill
it decide neither whether it fails nor what any command says.  Which scalars come back as the
bindings, and in which order, is what the steps have given to an object.

Main results:

- `OpenConstruction.eval_fill`, `OpenChange.get_fill`: what one step computes from
  changed objects with changed scalars is changed, and it fails alike.
- `runAll_fill`: a whole run commutes with a change of the values.
- `commands_independent_of_scalars`: all fillings of a script fail alike, or all of
  them give the same commands, with the scalars that the steps have given as bindings.
-/

namespace SqlFragments.Script

/-! ## What steps compute -/

section Eval

variable {σ : Type} (f : Value → Value) (a : σ → Value)

/-- A result that another changes into is still changed after both have been used. -/
theorem map_eq_map_map {ε α β γ δ : Type} {x : Except ε α} {other : Except ε β} {change : α → β}
    {use : α → γ} {use' : β → δ} {lift : γ → δ} (h : other = x.map change)
    (huse : ∀ v, use' (change v) = lift (use v)) : other.map use' = (x.map use).map lift := by
  rw [h]
  cases x with
  | error e => rfl
  | ok v => exact congrArg Except.ok (huse v)

/-- Along two lists made from one list, a function that gives the changes of what another
gives does so for the whole lists, and fails at the same member. -/
theorem mapM_map_eq_map_mapM {ε α β γ δ : Type} (make other : α → β) {g : β → Except ε γ}
    {h : β → Except ε δ} {change : γ → δ} (heq : ∀ x, h (other x) = (g (make x)).map change)
    (xs : List α) : (xs.map other).mapM h = ((xs.map make).mapM g).map (List.map change) := by
  induction xs with
  | nil => rfl
  | cons x xs ih =>
    rw [List.map_cons, List.mapM_cons, List.map_cons, List.mapM_cons, heq, ih]
    cases g (make x) with
    | error e => rfl
    | ok y => cases (xs.map make).mapM g <;> rfl

/-- An item source sees the same object with its values changed. -/
theorem ItemSource.eval_mapValues (store : Store) (item : ItemSource) :
    item.eval (store.mapValues f) = (item.eval store).map (Item.mapValues f) := by
  have hquery : ∀ name, (store.mapValues f).get Object.query? name =
      (store.get Object.query? name).map (Query.mapValues f) :=
    store.get_mapValues f (Object.query?_mapValues f)
  cases item with
  | code text => rfl
  | object name => exact store.get_mapValues f (Object.item?_mapValues f) name
  | query name => exact map_eq_map_map (hquery name) fun q => rfl
  | list name => exact map_eq_map_map (hquery name) fun q => rfl

/-- An argument filled with changed scalars is the argument with its values changed. -/
theorem OpenArgument.eval_fill (store : Store) (arg : OpenArgument σ) :
    (arg.fill (f ∘ a)).eval (store.mapValues f) =
      ((arg.fill a).eval store).map (Argument.mapValues f) := by
  cases arg with
  | scalar position => rfl
  | object name => exact store.get_mapValues f (Object.argument?_mapValues f) name
  | query name =>
    have hquery := store.get_mapValues f (Object.query?_mapValues f) name
    exact map_eq_map_map hquery fun q => rfl

/-- An expression filled with changed scalars is the expression with its values changed. -/
theorem OpenExpression.eval_fill (store : Store) (e : OpenExpression σ) :
    evalExpression (store.mapValues f) (e.fill (f ∘ a)) =
      (evalExpression store (e.fill a)).map (Argument.mapValues f) := by
  cases e with
  | scalar position => rfl
  | name name => exact store.get_mapValues f (Object.argument?_mapValues f) name
  | borrowed name => exact store.get_mapValues f (Object.argument?_mapValues f) name

/-- An append filled with changed scalars is the append with its values changed. -/
theorem OpenExpression.eval_fillAppend (store : Store)
    (append : Template.Append (OpenExpression σ)) :
    evalAppend (store.mapValues f) (fillAppend (f ∘ a) append) =
      (evalAppend store (fillAppend a append)).map (Template.Append.mapValues f) := by
  cases append with
  | code text => rfl
  | arg e => exact map_eq_map_map (e.eval_fill f a store) fun argument => rfl

/-- An expanded template fails at the same expression, or gives the changed query. -/
theorem buildTemplate_fill (store : Store) (appends : List (Template.Append (OpenExpression σ))) :
    buildTemplate (store.mapValues f) (appends.map (OpenExpression.fillAppend (f ∘ a))) =
      (buildTemplate store (appends.map (OpenExpression.fillAppend a))).map
        (Query.mapValues f) := by
  have happends := mapM_map_eq_map_mapM _ _ (OpenExpression.eval_fillAppend f a store) appends
  exact map_eq_map_map happends (Template.build_map f)

/-- A column does not depend on values. -/
theorem ColumnSource.eval_mapValues (store : Store) (column : ColumnSource) :
    column.eval (store.mapValues f) = column.eval store := by
  cases column with
  | text text => rfl
  | identifier name =>
    have hsee : ∀ x : Object, (x.mapValues f).identifier? = x.identifier?.map id := by
      intro x
      rw [x.identifier?_mapValues, Option.map_id, id]
    rw [ColumnSource.eval, ColumnSource.eval, store.get_mapValues f hsee]
    cases store.get Object.identifier? name <;> rfl

/-- The code of a predicate takes from a list of scalars only whether it is empty. -/
theorem OpenPredicate.query_fill (column : Identifier) (p : OpenPredicate σ) :
    (p.fill (f ∘ a)).query column = ((p.fill a).query column).mapValues f := by
  have hmember : ∀ (operator : String) (positions : List σ) (whenEmpty : String),
      Predicate.membership column operator (positions.map (f ∘ a)) whenEmpty =
        (Predicate.membership column operator (positions.map a) whenEmpty).mapValues f := by
    intro operator positions whenEmpty
    rw [← List.map_map, Predicate.membership, Predicate.membership, ValueList.ofValues_map,
      ValueList.isEmpty_mapValues]
    have hgroup : ∀ l : ValueList,
        toItem (l.mapValues f).parenthesized = (toItem l.parenthesized).mapValues f :=
      fun l => congrArg Item.query (Group.toQuery_mapValues f l.parenthesized)
    split
    · rfl
    · rw [hgroup, ← Builder.build_mapValues, Builder.mapValues_raw]
      rfl
  cases p with
  | compare comparison position => rfl
  | isNull => rfl
  | isNotNull => rfl
  | inList positions => exact hmember _ positions _
  | notIn positions => exact hmember _ positions _
  | between low high => rfl

/-- A construction fails alike with changed objects and scalars, or makes the changed
object. -/
theorem OpenConstruction.eval_fill (store : Store) (construction : OpenConstruction σ) :
    (construction.fill (f ∘ a)).eval (store.mapValues f) =
      ((construction.fill a).eval store).map (Object.mapValues f) := by
  cases construction with
  | list positions =>
    rw [fill, fill, ← List.map_map, ValueList.ofValues_map]
    rfl
  | identifier text =>
    rw [fill, fill, Construction.eval, Construction.eval]
    cases Identifier.parse text <;> rfl
  | quotedIdentifier name =>
    rw [fill, fill, Construction.eval, Construction.eval]
    cases Identifier.ofQuoted name <;> rfl
  | copy name =>
    have hsee : ∀ x : Object, some (x.mapValues f) = (some x).map (Object.mapValues f) :=
      fun x => rfl
    exact store.get_mapValues f hsee name
  | query name =>
    have hquery := store.get_mapValues f (Object.query?_mapValues f) name
    exact map_eq_map_map hquery fun q => rfl
  | built name =>
    have hbuilder := store.get_mapValues f (Object.builder?_mapValues f) name
    exact map_eq_map_map hbuilder fun b => rfl
  | weave chunks args =>
    rw [fill, fill, Construction.eval, Construction.eval,
      mapM_map_eq_map_mapM _ _ (OpenArgument.eval_fill f a store)]
    cases (args.map (OpenArgument.fill a)).mapM (ArgumentSource.eval store) with
    | error failure => rfl
    | ok args =>
      change ((Template.weave chunks (args.map (Argument.mapValues f))).mapError Failure.invalid >>=
        fun q => Except.ok (Object.query q)) =
          ((Template.weave chunks args).mapError Failure.invalid >>=
            fun q => Except.ok (Object.query q)).map (Object.mapValues f)
      rw [Template.weave_map]
      cases Template.weave chunks args <;> rfl
  | template appends => exact map_eq_map_map (buildTemplate_fill f a store appends) fun q => rfl
  | group item => exact map_eq_map_map (item.eval_mapValues f store) fun item => rfl
  | parenthesized name =>
    have hlist := store.get_mapValues f (Object.list?_mapValues f) name
    exact map_eq_map_map hlist fun l => rfl
  | predicate column p =>
    rw [fill, fill, Construction.eval, Construction.eval, ColumnSource.eval_mapValues]
    cases column.eval store with
    | error failure => rfl
    | ok column => exact congrArg (Except.ok ∘ Object.query) (p.query_fill f a column)
  | _ => rfl

/-- An item enters an object whatever the values in both. -/
theorem Change.applyItem_mapValues (change : Change) (item : Item) (x : Object) :
    change.applyItem (item.mapValues f) (x.mapValues f) =
      (change.applyItem item x).map (Object.mapValues f) := by
  cases x with
  | builder b =>
    cases change with
    | raw source => exact congrArg (some ∘ Object.builder) (b.mapValues_raw f item).symm
    | _ => rfl
  | list l =>
    cases change with
    | raw source => exact congrArg (some ∘ Object.list) (l.mapValues_append f item).symm
    | _ => rfl
  | condition c =>
    cases change with
    | connect connective source =>
      exact congrArg (some ∘ Object.condition) (c.mapValues_add f connective item).symm
    | _ => rfl
  | filter restriction =>
    cases change with
    | connect connective source =>
      cases connective with
      | and => exact congrArg (some ∘ Object.filter) (restriction.mapValues_and f item).symm
      | or => exact congrArg (some ∘ Object.filter) (restriction.mapValues_or f item).symm
    | _ => rfl
  | select s =>
    cases change with
    | connect connective source =>
      cases connective with
      | and => exact congrArg (some ∘ Object.select) (s.mapValues_andWhere f item).symm
      | or => exact congrArg (some ∘ Object.select) (s.mapValues_orWhere f item).symm
    | column source => exact congrArg (some ∘ Object.select) (s.mapValues_column f item).symm
    | join source => exact congrArg (some ∘ Object.select) (s.mapValues_join f item).symm
    | groupBy source => exact congrArg (some ∘ Object.select) (s.mapValues_groupBy f item).symm
    | orderBy source => exact congrArg (some ∘ Object.select) (s.mapValues_orderBy f item).symm
    | _ => rfl
  | _ => rfl

/-- Changing values commutes with appending items. -/
theorem Change.applyItems_mapValues (items : List Item) (x : Object) :
    applyItems (items.map (Item.mapValues f)) (x.mapValues f) =
      (applyItems items x).map (Object.mapValues f) := by
  cases x with
  | builder b => exact congrArg (some ∘ Object.builder) (b.mapValues_rawAll f items).symm
  | _ => rfl

/-- Changing values commutes with appending an argument. -/
theorem Change.applyArgument_mapValues (arg : Argument) (x : Object) :
    applyArgument (arg.mapValues f) (x.mapValues f) =
      (applyArgument arg x).map (Object.mapValues f) := by
  cases x with
  | builder b => exact congrArg (some ∘ Object.builder) (b.mapValues_arg f arg).symm
  | _ => rfl

/-- Changing values commutes with nesting a list. -/
theorem Change.applyList_mapValues (inner : ValueList) (x : Object) :
    applyList (inner.mapValues f) (x.mapValues f) =
      (applyList inner x).map (Object.mapValues f) := by
  cases x with
  | list l => exact congrArg (some ∘ Object.list) (l.mapValues_append f (toItem inner)).symm
  | _ => rfl

/-- A value enters an object whatever it is. -/
theorem OpenChange.applyValue_fill (change : OpenChange σ) (v : Value) (x : Object) :
    (change.fill (f ∘ a)).applyValue (f v) (x.mapValues f) =
      ((change.fill a).applyValue v x).map (Object.mapValues f) := by
  cases x with
  | builder b =>
    cases change with
    | value position => exact congrArg (some ∘ Object.builder) (b.mapValues_value f v).symm
    | _ => rfl
  | list l =>
    cases change with
    | value position => exact congrArg (some ∘ Object.list) (l.mapValues_value f v).symm
    | _ => rfl
  | select s => cases change <;> rfl
  | _ => rfl

/-- Two functions on objects, the second of which makes the changed object of a changed
one, change the object under a name alike. -/
theorem bind_get_mapValues {α β : Type} {change : α → β} {apply : α → Object → Option Object}
    {other : β → Object → Option Object}
    (h : ∀ v x, other (change v) (x.mapValues f) = (apply v x).map (Object.mapValues f))
    (source : Except Failure α) (store : Store) (name : String) :
    (((source.map change).map other) >>= fun see => (store.mapValues f).get see name) =
      ((source.map apply) >>= fun see => store.get see name).map (Object.mapValues f) := by
  cases source with
  | error failure => rfl
  | ok v => exact store.get_mapValues f (h v) name

/-- A change fails alike with changed objects and scalars, or gives the changed object. -/
theorem OpenChange.get_fill (store : Store) (edit : OpenChange σ) (name : String) :
    ((edit.fill (f ∘ a)).eval (store.mapValues f) >>=
        fun see => (store.mapValues f).get see name) =
      ((edit.fill a).eval store >>= fun see => store.get see name).map (Object.mapValues f) := by
  cases edit with
  | raw item | column item | source item | join item | groupBy item | orderBy item =>
    rw [fill, fill, Change.eval, Change.eval, ItemSource.eval_mapValues]
    exact bind_get_mapValues f (Change.applyItem_mapValues f _) (item.eval store) store name
  | connect connective item =>
    rw [fill, fill, Change.eval, Change.eval, ItemSource.eval_mapValues]
    exact bind_get_mapValues f (Change.applyItem_mapValues f _) (item.eval store) store name
  | value position =>
    exact store.get_mapValues f (applyValue_fill f a (.value position) (a position)) name
  | limit position =>
    exact store.get_mapValues f (applyValue_fill f a (.limit position) (a position)) name
  | offset position =>
    exact store.get_mapValues f (applyValue_fill f a (.offset position) (a position)) name
  | rawAll items =>
    have hitems := mapM_map_eq_map_mapM id id (ItemSource.eval_mapValues f store) items
    rw [List.map_id] at hitems
    rw [fill, fill, Change.eval, Change.eval, hitems]
    exact bind_get_mapValues f (Change.applyItems_mapValues f) _ store name
  | argument arg =>
    rw [fill, fill, Change.eval, Change.eval, OpenArgument.eval_fill]
    exact bind_get_mapValues f (Change.applyArgument_mapValues f) _ store name
  | nested list =>
    rw [fill, fill, Change.eval, Change.eval, store.get_mapValues f (Object.list?_mapValues f)]
    exact bind_get_mapValues f (Change.applyList_mapValues f) _ store name

/-! ## Runs -/

/-- A step fails alike in a changed store with changed scalars, or gives the changed
store. -/
theorem OpenStep.run_fill (store : Store) (step : OpenStep σ) :
    (step.fill (f ∘ a)).run (store.mapValues f) =
      ((step.fill a).run store).map (Store.mapValues f) := by
  cases step with
  | make name construction =>
    rw [fill, fill, Step.run, Step.run, OpenConstruction.eval_fill]
    cases (construction.fill a).eval store with
    | error failure => rfl
    | ok x => exact congrArg Except.ok (store.mapValues_put f name x).symm
  | change name edit =>
    rw [fill, fill, Step.run_change, Step.run_change, OpenChange.get_fill]
    cases (edit.fill a).eval store >>= fun see => store.get see name with
    | error failure => rfl
    | ok x => exact congrArg Except.ok (store.mapValues_put f name x).symm

/-- What a compiler makes of the object under a name. -/
def Store.compile? (store : Store) (c : Compiler) (name : String) : Option Compiled :=
  (store.find? name).bind (Object.compile? c)

/-- The object under a name is compiled as the query it is. -/
theorem Store.compile?_eq (store : Store) (c : Compiler) (name : String) :
    store.compile? c name = (store.query? name).map c.compile := by
  rw [compile?, query?, funext (Object.compile?_eq c), Option.map_bind]
  rfl

/-- The query under a name has its values changed with the store's. -/
theorem Store.query?_mapValues (store : Store) (name : String) :
    (store.mapValues f).query? name = (store.query? name).map (Query.mapValues f) := by
  rw [query?, query?, find?_mapValues]
  cases store.find? name with
  | none => rfl
  | some x => exact x.query?_mapValues f

/-- A run fails alike in a changed store with changed scalars, or ends in the changed
store. -/
theorem runAll_fill (store : Store) (program : List (OpenStep σ)) :
    runAll (store.mapValues f) (program.map (OpenStep.fill (f ∘ a))) =
      (runAll store (program.map (OpenStep.fill a))).map (Store.mapValues f) := by
  induction program generalizing store with
  | nil => rfl
  | cons step program ih =>
    rw [List.map_cons, runAll, List.foldlM_cons, OpenStep.run_fill, List.map_cons, runAll,
      List.foldlM_cons]
    cases (step.fill a).run store with
    | error failure => rfl
    | ok after => exact ih after

end Eval

/-! ## Scalars as markers -/

/-- A value that marks a position. -/
def marker (position : Nat) : Value := .text (String.ofList (List.replicate position '?'))

/-- The position that a value marks. -/
def marked : Value → Nat
  | .text s => s.toList.length
  | _ => 0

/-- A position is found again from its marker. -/
theorem marked_marker (position : Nat) : marked (marker position) = position := by
  simp [marked, marker]

/-- Every filling comes from the markers by a change of the values. -/
theorem comp_marked_comp_marker (a : Nat → Value) : (a ∘ marked) ∘ marker = a := by
  funext position
  rw [Function.comp_apply, Function.comp_apply, marked_marker]

/-- All runs of an open script end as its run with markers does. -/
theorem runAll_fill_marker (a : Nat → Value) (program : List (OpenStep Nat)) :
    runAll .empty (program.map (OpenStep.fill a)) =
      (runAll .empty (program.map (OpenStep.fill marker))).map (Store.mapValues (a ∘ marked)) := by
  have h := runAll_fill (a ∘ marked) marker .empty program
  rw [comp_marked_comp_marker] at h
  exact h

/-- A query with markers compiles, once it is filled, to the same command and to the scalars
at the tracked positions. -/
theorem compile?_of_markers {final : Store} {env : String → Holding Nat} {a : Nat → Value}
    (h : (final.mapValues (a ∘ marked)).Holds a env) {name : String} {q : Query}
    (hquery : final.query? name = some q) (c : Compiler) :
    (final.mapValues (a ∘ marked)).compile? c name =
      some ⟨(c.compile q).command, (env name).all.map a⟩ := by
  have hfilled : (final.mapValues (a ∘ marked)).query? name =
      some (q.mapValues (a ∘ marked)) := by
    rw [Store.query?_mapValues, hquery, Option.map_some]
  have hcommand : (c.compile (q.mapValues (a ∘ marked))).command = (c.compile q).command := by
    rw [c.compile_mapValues]
    rfl
  have hbindings : (c.compile (q.mapValues (a ∘ marked))).bindings = (env name).all.map a := by
    rw [c.compile_query]
    exact h.values_query hfilled
  rw [Store.compile?_eq, hfilled, Option.map_some, ← hcommand, ← hbindings]

/-- All fillings of an open script fail alike, or all of them end.  Then the steps alone say
which names have an object, which of them a query, and which scalars the steps have put into
it in which order.  The tree of each filling has the scalars of the filling at these positions
and no other values; under every compiler all fillings have one command, and their bindings
are these scalars. -/
theorem commands_independent_of_scalars (program : List (OpenStep Nat)) :
    (∃ failure, ∀ a, runAll .empty (program.map (OpenStep.fill a)) = .error failure) ∨
    ∃ final : (Nat → Value) → Store,
      (∀ a, runAll .empty (program.map (OpenStep.fill a)) = .ok (final a)) ∧
      ∀ name : String,
        let given := holdings program name
        (∀ a, ((final a).find? name).isSome = true ↔ name ∈ program.map OpenStep.name) ∧
        (given.isQuery = false →
          ∀ a, (final a).query? name = none ∧ ∀ c, (final a).compile? c name = none) ∧
        (given.isQuery = true →
          (∀ a, ∃ q, (final a).query? name = some q ∧
            Leaf.values q.leaves = given.all.map a) ∧
          ∀ c : Compiler, ∃ command : String, ∀ a,
            (final a).compile? c name = some ⟨command, given.all.map a⟩) := by
  cases hrun : runAll .empty (program.map (OpenStep.fill marker)) with
  | error failure =>
    left
    refine ⟨failure, ?_⟩
    intro a
    rw [runAll_fill_marker, hrun]
    rfl
  | ok final =>
    have hfinal : ∀ a, runAll .empty (program.map (OpenStep.fill a)) =
        .ok (final.mapValues (a ∘ marked)) := by
      intro a
      rw [runAll_fill_marker, hrun]
      rfl
    have hholds : ∀ a, (final.mapValues (a ∘ marked)).Holds a (holdings program) :=
      fun a => Store.holds_of_runAll (hfinal a)
    right
    refine ⟨fun a => final.mapValues (a ∘ marked), hfinal, ?_⟩
    intro name given
    refine ⟨?_, ?_, ?_⟩
    · intro a
      have hnames : (program.map (OpenStep.fill a)).map Step.name = program.map OpenStep.name := by
        simp
      rw [isSome_find?_run (hfinal a), hnames]
      simp [Store.find?, Store.empty]
    · intro hnone a
      have hquery : (final.mapValues (a ∘ marked)).query? name = none := by
        have hsome := (hholds a).isSome_query? name
        rwa [hnone, Option.isSome_eq_false_iff, Option.isNone_iff_eq_none] at hsome
      refine ⟨hquery, ?_⟩
      intro c
      rw [Store.compile?_eq, hquery, Option.map_none]
    · intro hsome
      have hmarkers := (Store.holds_of_runAll hrun).isSome_query? name
      rw [hsome, Option.isSome_iff_exists] at hmarkers
      obtain ⟨q, hq⟩ := hmarkers
      refine ⟨?_, ?_⟩
      · intro a
        have hfilled : (final.mapValues (a ∘ marked)).query? name =
            some (q.mapValues (a ∘ marked)) := by
          rw [Store.query?_mapValues, hq, Option.map_some]
        exact ⟨_, hfilled, (hholds a).values_query hfilled⟩
      · intro c
        exact ⟨(c.compile q).command, fun a => compile?_of_markers (hholds a) hq c⟩

/-- A statement whose limit is given twice, with a condition to which a blank query, a list and
a range are given; next to it a text with a scalar, and an object that is no query. -/
theorem commands_independent_of_scalars_statement :
    let program : List (OpenStep Nat) :=
      [.make "scalar" (.scalar 0),
        .make "listed" (.predicate (.text "id") (.inList [1, 2])),
        .make "within" (.predicate (.text "age") (.between 3 4)),
        .make "blank" .emptyQuery,
        .make "any" .condition,
        .change "any" (.connect .or (.object "blank")),
        .change "any" (.connect .or (.object "within")),
        .change "any" (.connect .or (.object "listed")),
        .make "rows" .select,
        .change "rows" (.limit 5),
        .change "rows" (.connect .and (.object "any")),
        .change "rows" (.source (.code "t")),
        .change "rows" (.limit 6),
        .make "found" (.template [.arg (.scalar 7), .code " IN (".toList, .arg (.name "rows"),
          .code ")".toList])]
    let command := "$1 IN (SELECT * FROM t WHERE (age BETWEEN $2 AND $3 OR id IN ($4,$5)) LIMIT $6)"
    ∀ a : Nat → Value, ∃ final,
      runAll .empty (program.map (OpenStep.fill a)) = .ok final ∧
      final.query? "scalar" = none ∧
      final.compile? .numbered "found" =
        some ⟨command, [a 7, a 3, a 4, a 1, a 2, a 6]⟩ := by
  intro program command a
  have hone : (runAll .empty (program.map (OpenStep.fill fun _ => .null))).toOption.bind
      (·.compile? .numbered "found") =
        some ⟨command, [.null, .null, .null, .null, .null, .null]⟩ := by
    decide +kernel
  rcases commands_independent_of_scalars program with ⟨failure, hfail⟩ | ⟨final, hrun, hnames⟩
  · rw [hfail] at hone
    cases hone
  · obtain ⟨found, hcompile⟩ := ((hnames "found").2.2 (by decide +kernel)).2 .numbered
    have hpositions : (holdings program "found").all = [7, 3, 4, 1, 2, 6] := by decide +kernel
    have hfound : found = command := by
      rw [hrun] at hone
      exact congrArg Compiled.command (Option.some.inj ((hcompile _).symm.trans hone))
    refine ⟨final a, hrun a, ((hnames "scalar").2.1 (by decide +kernel) a).1, ?_⟩
    rw [hcompile, hpositions, hfound]
    rfl

end SqlFragments.Script
