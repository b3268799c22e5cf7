import SqlFragments.Script.Step

/-!
# Steps with open scalars

A script whose scalars are left open says at which positions scalars stand.  An assignment
of values to the positions fills it, and what results is a script that can be run.

Main results:

- `OpenStep.fill`: a step with the scalars of an assignment.
- `Construction.eval_template`: a template that expands is evaluated as its appends are.
-/

namespace SqlFragments.Script

/-! ## Steps with open scalars -/

/-- Where an argument comes from, a scalar being left open. -/
inductive OpenArgument (σ : Type) where
  | scalar (position : σ)
  | object (name : String)
  | query (name : String)

/-- What an argument of a template is computed from, a scalar being left open. -/
inductive OpenExpression (σ : Type) where
  | scalar (position : σ)
  | name (name : String)
  | borrowed (name : String)

/-- What a predicate says of its column, the scalars being left open. -/
inductive OpenPredicate (σ : Type) where
  | compare (comparison : Comparison) (position : σ)
  | isNull
  | isNotNull
  | inList (positions : List σ)
  | notIn (positions : List σ)
  | between (low high : σ)

/-- How a new object is made, every scalar being left open. -/
inductive OpenConstruction (σ : Type) where
  | scalar (position : σ)
  | emptyQuery
  | code (text : String)
  /-- The query of one bound value. -/
  | bound (position : σ)
  | builder (join : Option String)
  /-- A list of bound values. -/
  | list (positions : List σ)
  | condition
  | filter
  | select
  | compiler (c : Compiler)
  | identifier (text : String)
  | quotedIdentifier (name : String)
  | copy (name : String)
  | query (name : String)
  | built (name : String)
  | weave (chunks : List String) (args : List (OpenArgument σ))
  /-- A template that has been expanded. -/
  | template (appends : List (Template.Append (OpenExpression σ)))
  | group (item : ItemSource)
  | parenthesized (name : String)
  | predicate (column : ColumnSource) (p : OpenPredicate σ)

/-- How an object is changed, every scalar being left open. -/
inductive OpenChange (σ : Type) where
  | raw (item : ItemSource)
  | rawAll (items : List ItemSource)
  | value (position : σ)
  | argument (arg : OpenArgument σ)
  | nested (name : String)
  | connect (connective : Connective) (item : ItemSource)
  | column (item : ItemSource)
  | source (item : ItemSource)
  | join (item : ItemSource)
  | groupBy (item : ItemSource)
  | orderBy (item : ItemSource)
  | limit (position : σ)
  | offset (position : σ)

/-- A step of a script, every scalar being left open. -/
inductive OpenStep (σ : Type) where
  | make (name : String) (construction : OpenConstruction σ)
  | change (name : String) (change : OpenChange σ)

section Fill

variable {σ : Type} (a : σ → Value)

/-- The source of an argument with its scalar. -/
def OpenArgument.fill : OpenArgument σ → ArgumentSource
  | .scalar position => .value (a position)
  | .object name => .object name
  | .query name => .query name

/-- The expression with its scalar. -/
def OpenExpression.fill : OpenExpression σ → Template.Expression
  | .scalar position => .literal (a position)
  | .name other => .name other
  | .borrowed other => .borrowed other

/-- The append with the scalar of its expression. -/
def OpenExpression.fillAppend :
    Template.Append (OpenExpression σ) → Template.Append Template.Expression
  | .code text => .code text
  | .arg e => .arg (e.fill a)

/-- The predicate with its scalars. -/
def OpenPredicate.fill : OpenPredicate σ → Predicate
  | .compare comparison position => .compare comparison (a position)
  | .isNull => .isNull
  | .isNotNull => .isNotNull
  | .inList positions => .inList (positions.map a)
  | .notIn positions => .notIn (positions.map a)
  | .between low high => .between (a low) (a high)

/-- The construction with its scalars. -/
def OpenConstruction.fill : OpenConstruction σ → Construction
  | .scalar position => .object (.value (a position))
  | .emptyQuery => .object (.query .empty)
  | .code text => .object (.query (.raw text))
  | .bound position => .object (.query (.value (a position)))
  | .builder join => .object (.builder (.ofOptions ⟨join⟩))
  | .list positions => .object (.list (.ofValues (positions.map a)))
  | .condition => .object (.condition .empty)
  | .filter => .object (.filter .empty)
  | .select => .object (.select .empty)
  | .compiler c => .object (.compiler c)
  | .identifier text => .identifier text
  | .quotedIdentifier name => .quotedIdentifier name
  | .copy name => .copy name
  | .query name => .query name
  | .built name => .built name
  | .weave chunks args => .weave chunks (args.map (OpenArgument.fill a))
  | .template appends => .expanded (appends.map (OpenExpression.fillAppend a))
  | .group item => .group item
  | .parenthesized name => .parenthesized name
  | .predicate column p => .predicate column (p.fill a)

/-- The change with its scalars. -/
def OpenChange.fill : OpenChange σ → Change
  | .raw item => .raw item
  | .rawAll items => .rawAll items
  | .value position => .value (a position)
  | .argument arg => .argument (arg.fill a)
  | .nested name => .nested name
  | .connect connective item => .connect connective item
  | .column item => .column item
  | .source item => .source item
  | .join item => .join item
  | .groupBy item => .groupBy item
  | .orderBy item => .orderBy item
  | .limit position => .limit (a position)
  | .offset position => .offset (a position)

/-- The name whose object a step makes or changes. -/
def OpenStep.name : OpenStep σ → String
  | .make name _ => name
  | .change name _ => name

/-- The step with its scalars. -/
def OpenStep.fill : OpenStep σ → Step
  | .make name construction => .make name (construction.fill a)
  | .change name edit => .change name (edit.fill a)

@[simp]
theorem OpenStep.name_fill (step : OpenStep σ) : (step.fill a).name = step.name := by
  cases step <;> rfl

end Fill

/-- A template that expands is evaluated as its appends are. -/
theorem Construction.eval_template {text : String} {args : List String}
    {appends : List (Template.Append Template.Expression)}
    (h : expandTemplate text args = .ok appends) (store : Store) :
    (Construction.template text args).eval store = (Construction.expanded appends).eval store := by
  rw [Construction.eval, Construction.eval, h]
  change (buildTemplate store appends >>= fun q => Except.ok (Object.query q)) = _
  cases buildTemplate store appends <;> rfl

end SqlFragments.Script
