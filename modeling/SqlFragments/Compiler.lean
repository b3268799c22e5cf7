import SqlFragments.Compiler.Placeholder
import SqlFragments.Item
import SqlFragments.Text.Blank

/-!
# Compiling a query

A compiler walks a query from left to right in one pass.  Code is copied, a
subtree is walked in place, and a value is replaced by the placeholder of the
number of values before it and is added to the bindings.  Then the blanks of the
command may be collapsed, and last a function may be applied to it.

Main results:

- `bindings_walkAll`: the bindings are the values among the leaves, in order.
-/

namespace SqlFragments

/-- A command with placeholders, and the values to bind to them in order. -/
structure Compiled where
  command : String
  bindings : List Value
deriving DecidableEq, Repr

/-- How queries are compiled. -/
structure Compiler where
  placeholder : Placeholder
  /-- Whether runs of blanks are made single spaces, also inside quoted text. -/
  normalizesBlanks : Bool
  /-- What is applied to the command at the end. -/
  postProcess : Option (String → String)

namespace Compiler

/-- The compiler with question marks and nothing else. -/
def new : Compiler := ⟨.questionMark, false, none⟩

/-- The compiler with dollar placeholders and nothing else. -/
def numbered : Compiler := { new with placeholder := .dollar }

/-! ## The walk -/

/-- What the walk has written so far, and the values that it has met. -/
structure Walked where
  command : String
  bindings : Array Value

namespace Walked

/-- The state before the first segment. -/
def start : Walked := ⟨"", #[]⟩

/-- Writes code. -/
def literal (done : Walked) (code : String) : Walked :=
  { done with command := done.command ++ code }

/-- Writes the placeholder of the number of values so far, and binds a value. -/
def value (placeholder : Placeholder) (done : Walked) (v : Value) : Walked where
  command := done.command ++ placeholder.token done.bindings.size
  bindings := done.bindings.push v

@[simp]
theorem bindings_start : start.bindings = #[] := rfl

@[simp]
theorem bindings_literal (done : Walked) (code : String) :
    (done.literal code).bindings = done.bindings := rfl

@[simp]
theorem bindings_value (placeholder : Placeholder) (done : Walked) (v : Value) :
    (done.value placeholder v).bindings = done.bindings.push v := rfl

end Walked

mutual

/-- Adds a segment to what has been walked. -/
def walk (placeholder : Placeholder) (done : Walked) : Segment → Walked
  | .literal code => done.literal code
  | .value v => done.value placeholder v
  | .subtree inner => walkAll placeholder done inner

/-- Adds a sequence of segments to what has been walked. -/
def walkAll (placeholder : Placeholder) (done : Walked) : List Segment → Walked
  | [] => done
  | segment :: rest => walkAll placeholder (walk placeholder done segment) rest

end

/-- The command after the walk, as the compiler gives it out. -/
def finish (c : Compiler) (command : String) : String :=
  let command := if c.normalizesBlanks then Text.collapseBlanks command else command
  c.postProcess.elim command fun f => f command

/-- The command and the bindings of a sequence of segments. -/
def compileSegments (c : Compiler) (segments : List Segment) : Compiled :=
  let walked := walkAll c.placeholder .start segments
  ⟨c.finish walked.command, walked.bindings.toList⟩

/-- The command and the bindings of a query. -/
def compileQuery (c : Compiler) (q : Query) : Compiled := c.compileSegments q.segments

/-- The command and the bindings of anything that stands for a query.  An object that
holds segments is read in place, and any other is turned into its query first. -/
def compile {α : Type} [ToQuery α] (c : Compiler) (x : α) : Compiled :=
  match heldSegments x with
  | some segments => c.compileSegments segments
  | none => c.compileQuery (toQuery x)

/-- The bindings are the values among the leaves, in order. -/
theorem bindings_walkAll (placeholder : Placeholder) (done : Walked)
    (segments : List Segment) :
    (walkAll placeholder done segments).bindings.toList =
      done.bindings.toList ++ (Segment.leavesOf segments).filterMap Leaf.value? := by
  induction segments using Segment.list_induction generalizing done with
  | nil => simp [walkAll, Segment.leavesOf]
  | literal code rest ih =>
    simp [walkAll, walk, ih, Segment.leavesOf, Segment.leaves, List.filterMap_cons, Leaf.value?]
  | value v rest ih =>
    simp [walkAll, walk, ih, Segment.leavesOf, Segment.leaves, Leaf.value?]
  | subtree inner rest hinner hrest =>
    simp [walkAll, walk, hrest, hinner, Segment.leavesOf, Segment.leaves]

/-- Every value is bound once. -/
theorem length_bindings (c : Compiler) (q : Query) :
    (c.compileQuery q).bindings.length = q.valueCount := by
  rw [q.valueCount_eq]
  simp [compileQuery, compileSegments, bindings_walkAll, Query.leaves]

end Compiler

end SqlFragments
