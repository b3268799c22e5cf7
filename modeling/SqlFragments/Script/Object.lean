import SqlFragments.Clause.Predicate
import SqlFragments.Clause.Select
import SqlFragments.Compiler

/-!
# Named objects

A script builds objects and keeps them under names.  Most objects stand for a query;
identifiers and values can enter one, and compilers turn one into a command.

Main results:

- `Object.argument?_eq`: an object that stands for a query is interpolated as the tree
  that it is as an item.
-/

namespace SqlFragments.Script

/-- An object of a script. -/
inductive Object where
  | query (q : Query)
  | builder (b : Builder)
  | group (g : Group)
  | list (l : ValueList)
  | condition (c : Condition)
  | filter (f : Filter)
  | select (s : Select)
  | identifier (i : Identifier)
  | value (v : Value)
  | compiler (c : Compiler)

namespace Object

/-- The query that an object stands for alone. -/
def query? : Object → Option Query
  | .query q => some (toQuery q)
  | .builder b => some (toQuery b)
  | .group g => some (toQuery g)
  | .list l => some (toQuery l)
  | .condition c => some (toQuery c)
  | .filter f => some (toQuery f)
  | .select s => some (toQuery s)
  | _ => none

/-- An object as a trusted item. -/
def item? : Object → Option Item
  | .query q => some (toItem q)
  | .builder b => some (toItem b)
  | .group g => some (toItem g)
  | .list l => some (toItem l)
  | .condition c => some (toItem c)
  | .filter f => some (toItem f)
  | .select s => some (toItem s)
  | .identifier i => some i.asItem
  | .value _ => none
  | .compiler _ => none

/-- An object as an argument. -/
def argument? : Object → Option Argument
  | .query q => some (toArgument q)
  | .builder b => some (toArgument b)
  | .group g => some (toArgument g)
  | .list l => some (toArgument l)
  | .condition c => some (toArgument c)
  | .filter f => some (toArgument f)
  | .select s => some (toArgument s)
  | .value v => some (.value v)
  | .identifier _ => none
  | .compiler _ => none

/-- The segments that an object holds as they are. -/
def segments? : Object → Option (List Segment)
  | .query q => heldSegments q
  | .builder b => heldSegments b
  | .group g => heldSegments g
  | .list l => heldSegments l
  | .condition c => heldSegments c
  | .filter f => heldSegments f
  | .select s => heldSegments s
  | _ => none

/-- What a compiler makes of an object that stands for a query. -/
def compile? (compiler : Compiler) : Object → Option Compiled
  | .query q => some (compiler.compile q)
  | .builder b => some (compiler.compile b)
  | .group g => some (compiler.compile g)
  | .list l => some (compiler.compile l)
  | .condition c => some (compiler.compile c)
  | .filter f => some (compiler.compile f)
  | .select s => some (compiler.compile s)
  | _ => none

/-- Equality of two objects: of identifiers, of values, of groups, and otherwise of the
queries that they stand for. -/
def equals? : Object → Object → Option Bool
  | .identifier i, .identifier j => some (i == j)
  | .value v, .value w => some (v.equals w)
  | .group g, .group h => some (g.equals h)
  | x, y => do return (← x.query?).equals (← y.query?)

/-- An object that stands for a query contributes one segment, whether it is appended as
an item or interpolated as an argument. -/
theorem argument?_eq {x : Object} (h : x.query?.isSome = true) :
    x.argument?.map Argument.segment = x.item?.map Item.segment := by
  cases x <;> first | rfl | simp [query?] at h

end Object

end SqlFragments.Script
