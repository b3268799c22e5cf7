import SqlFragments.Script.Object

/-!
# Commands and the leaves of a tree

A compiler sees a tree only through its leaves.  This file says what text the
leaves of a tree write, with one number for every value counted over the whole
tree, and proves that the walk over nested segments writes exactly that text.
Trees with holes then describe every place at which a tree can stand in others, and what
surrounds one place says which numbers the values of a tree have there.

Main results:

- `textFrom_append`: leaves are written part by part, the numbers going on.
- `command_walkAll`: a walk writes the text of the leaves after what stands there.
- `leavesOf_fillAll`: filling holes puts the leaves of the filling into each hole.
- `compile_place`: what a query contributes to the command of a tree that it stands in.
- `compileSegments_eq`: the command and the bindings of a tree are those of its leaves.
-/

namespace SqlFragments

/-! ## The text of leaves -/

namespace Leaf

/-- The values among leaves, in order. -/
def values (leaves : List Leaf) : List Value := leaves.filterMap value?

/-- The number of values among leaves. -/
def count (leaves : List Leaf) : Nat := (values leaves).length

/-- The text of a leaf that has `index` values before it. -/
def text (placeholder : Placeholder) (index : Nat) : Leaf → String
  | .literal code => code
  | .value _ => placeholder.token index

/-- The text of leaves that have `start` values before them: a literal stands for its
code, and a value for the token of the number of values before it. -/
def textFrom (placeholder : Placeholder) (start : Nat) (leaves : List Leaf) : String :=
  String.join (leaves.mapIdx fun i leaf =>
    leaf.text placeholder (start + count (leaves.take i)))

@[simp]
theorem values_cons_literal (code : String) (rest : List Leaf) :
    values (.literal code :: rest) = values rest := rfl

@[simp]
theorem values_cons_value (v : Value) (rest : List Leaf) :
    values (.value v :: rest) = v :: values rest := rfl

@[simp]
theorem values_append (leaves others : List Leaf) :
    values (leaves ++ others) = values leaves ++ values others := List.filterMap_append

@[simp]
theorem values_nil : values [] = [] := rfl

@[simp]
theorem count_nil : count [] = 0 := rfl

/-- The values of two runs of leaves are counted apart. -/
theorem count_append (leaves others : List Leaf) :
    count (leaves ++ others) = count leaves + count others := by
  simp [count]

/-- The first leaf is counted apart from the others. -/
theorem count_cons (leaf : Leaf) (rest : List Leaf) :
    count (leaf :: rest) = count [leaf] + count rest :=
  count_append [leaf] rest

@[simp]
theorem count_literal (code : String) : count [.literal code] = 0 := rfl

@[simp]
theorem count_value (v : Value) : count [.value v] = 1 := rfl

@[simp]
theorem textFrom_nil (placeholder : Placeholder) (start : Nat) :
    textFrom placeholder start [] = "" := rfl

/-- The first leaf is written apart from the others, which start after its token. -/
theorem textFrom_cons (placeholder : Placeholder) (start : Nat) (leaf : Leaf)
    (rest : List Leaf) :
    textFrom placeholder start (leaf :: rest) =
      leaf.text placeholder start ++ textFrom placeholder (start + count [leaf]) rest := by
  have hnext : ∀ i, start + count ((leaf :: rest).take (i + 1)) =
      start + count [leaf] + count (rest.take i) := by
    intro i
    rw [List.take_succ_cons, count_cons, Nat.add_assoc]
  simp only [textFrom, List.mapIdx_cons, String.join_cons, hnext, List.take_zero, count_nil,
    Nat.add_zero]

/-- Leaves are written part by part, and the numbers go on. -/
theorem textFrom_append (placeholder : Placeholder) (start : Nat) (leaves others : List Leaf) :
    textFrom placeholder start (leaves ++ others) =
      textFrom placeholder start leaves ++
        textFrom placeholder (start + count leaves) others := by
  induction leaves generalizing start with
  | nil => simp
  | cons leaf rest ih =>
    rw [List.cons_append, textFrom_cons, ih, textFrom_cons, count_cons leaf rest,
      String.append_assoc, Nat.add_assoc]

/-- Parts of a sequence of leaves are written one after the other, each with the number
of the values in all parts before it. -/
theorem textFrom_flatten (placeholder : Placeholder) (start : Nat) (parts : List (List Leaf)) :
    textFrom placeholder start parts.flatten =
      String.join (parts.mapIdx fun i part =>
        textFrom placeholder (start + count (parts.take i).flatten) part) := by
  induction parts generalizing start with
  | nil => rfl
  | cons part rest ih =>
    have hnext : ∀ i, start + count ((part :: rest).take (i + 1)).flatten =
        start + count part + count (rest.take i).flatten := by
      intro i
      rw [List.take_succ_cons, List.flatten_cons, count_append, Nat.add_assoc]
    rw [List.flatten_cons, textFrom_append, ih]
    simp only [List.mapIdx_cons, String.join_cons, hnext, List.take_zero, List.flatten_nil,
      count_nil, Nat.add_zero]

end Leaf

/-! ## The walk -/

namespace Compiler

/-- A walk writes the text of the leaves after what stands there, the numbers going on
from the values that are bound already. -/
theorem command_walkAll (placeholder : Placeholder) (done : Walked)
    (segments : List Segment) :
    (walkAll placeholder done segments).command =
      done.command ++
        Leaf.textFrom placeholder done.bindings.size (Segment.leavesOf segments) := by
  -- Over the nesting too: a subtree starts from what its elders have written and bound.
  induction segments using Segment.list_induction generalizing done with
  | nil => simp [walkAll, Segment.leavesOf]
  | literal code rest ih =>
    rw [walkAll, walk, ih]
    simp [Segment.leavesOf, Segment.leaves, Leaf.textFrom_cons, Leaf.text, Walked.literal,
      String.append_assoc]
  | value v rest ih =>
    rw [walkAll, walk, ih]
    simp [Segment.leavesOf, Segment.leaves, Leaf.textFrom_cons, Leaf.text, Walked.value,
      String.append_assoc]
  | subtree inner rest hinner hrest =>
    have hsize : (walkAll placeholder done inner).bindings.size =
        done.bindings.size + Leaf.count (Segment.leavesOf inner) := by
      have h := congrArg List.length (bindings_walkAll placeholder done inner)
      simpa [Leaf.count, Leaf.values] using h
    rw [walkAll, walk, hrest, hinner, hsize, Segment.leavesOf, Segment.leaves,
      Leaf.textFrom_append, String.append_assoc]

/-- A sequence of segments compiles to the text and the values of its leaves. -/
theorem compileSegments_eq (c : Compiler) (segments : List Segment) :
    c.compileSegments segments =
      ⟨c.finish (Leaf.textFrom c.placeholder 0 (Segment.leavesOf segments)),
        Leaf.values (Segment.leavesOf segments)⟩ := by
  have htext := command_walkAll c.placeholder .start segments
  have hvalues := bindings_walkAll c.placeholder .start segments
  simp only [compileSegments, htext, hvalues]
  simp [Walked.start, Leaf.values]

/-- A query compiles to the text and the values of its leaves. -/
theorem compile_query (c : Compiler) (q : Query) :
    c.compile q =
      ⟨c.finish (Leaf.textFrom c.placeholder 0 q.leaves), Leaf.values q.leaves⟩ :=
  compileSegments_eq c q.segments

end Compiler

/-- Every object that stands for a query compiles as that query does, whether it is read
in place or turned into the query first. -/
theorem Script.Object.compile?_eq (c : Compiler) (x : Script.Object) :
    x.compile? c = x.query?.map c.compile := by
  cases x <;> rfl

/-! ## Trees with holes -/

/-- A segment with holes at any depth, to be filled by one sequence of segments. -/
inductive Frame where
  | hole
  | segment (s : Segment)
  | subtree (inner : List Frame)

namespace Frame

/-- Induction over a sequence of frames and its subtrees. -/
theorem list_induction {motive : List Frame → Prop} (nil : motive [])
    (hole : ∀ rest, motive rest → motive (.hole :: rest))
    (segment : ∀ s rest, motive rest → motive (.segment s :: rest))
    (subtree : ∀ inner rest, motive inner → motive rest → motive (.subtree inner :: rest))
    (frames : List Frame) : motive frames :=
  @Frame.rec_1 (fun frame => ∀ rest, motive rest → motive (frame :: rest)) motive
    (fun rest => hole rest) (fun s rest => segment s rest)
    (fun inner hinner rest => subtree inner rest hinner) nil
    (fun _ rest hhead hrest => hhead rest hrest) frames

mutual

/-- The segments that a frame stands for once its holes are filled. -/
def fill (filling : List Segment) : Frame → List Segment
  | .hole => filling
  | .segment s => [s]
  | .subtree inner => [.subtree (fillAll filling inner)]

/-- The segments that a sequence of frames stands for once its holes are filled. -/
def fillAll (filling : List Segment) : List Frame → List Segment
  | [] => []
  | frame :: rest => frame.fill filling ++ fillAll filling rest

end

mutual

/-- The leaves of a frame in parts, one part for each hole. -/
def parts (filling : List Leaf) : Frame → List (List Leaf)
  | .hole => [filling]
  | .segment s => [s.leaves]
  | .subtree inner => partsOf filling inner

/-- The leaves of a sequence of frames in parts, one part for each hole. -/
def partsOf (filling : List Leaf) : List Frame → List (List Leaf)
  | [] => []
  | frame :: rest => frame.parts filling ++ partsOf filling rest

end

/-- Filling holes puts the leaves of the filling into each hole, at every depth. -/
theorem leavesOf_fillAll (filling : List Segment) (frames : List Frame) :
    Segment.leavesOf (fillAll filling frames) =
      (partsOf (Segment.leavesOf filling) frames).flatten := by
  induction frames using list_induction with
  | nil => rfl
  | hole rest ih => simp [fillAll, fill, partsOf, parts, Segment.leavesOf_append, ih]
  | segment s rest ih =>
    simp [fillAll, fill, partsOf, parts, Segment.leavesOf, ih]
  | subtree inner rest hinner hrest =>
    simp [fillAll, fill, partsOf, parts, Segment.leavesOf, Segment.leaves, hinner, hrest]

/-- Two fillings with the same leaves make trees with the same leaves. -/
theorem leavesOf_fillAll_congr {filling other : List Segment}
    (h : Segment.leavesOf filling = Segment.leavesOf other) (frames : List Frame) :
    Segment.leavesOf (fillAll filling frames) = Segment.leavesOf (fillAll other frames) := by
  rw [leavesOf_fillAll, leavesOf_fillAll, h]

/-- A subtree has the leaves of its segments in place. -/
theorem leavesOf_subtree (inner : List Segment) :
    Segment.leavesOf [.subtree inner] = Segment.leavesOf inner := by
  simp [Segment.leavesOf, Segment.leaves]

end Frame

/-! ## A place in a tree -/

/-- The segments on the two sides of a subtree. -/
structure Surrounding where
  before : List Segment
  after : List Segment

namespace Surrounding

/-- A query at a place in a tree, given what surrounds it on each level, the innermost
first. -/
def place (q : Query) : List Surrounding → Query
  | [] => q
  | level :: outer => place ⟨level.before ++ q.asSegment :: level.after⟩ outer

/-- The leaves of a tree before a place in it. -/
def leavesBefore : List Surrounding → List Leaf
  | [] => []
  | level :: outer => leavesBefore outer ++ Segment.leavesOf level.before

/-- The leaves of a tree after a place in it. -/
def leavesAfter : List Surrounding → List Leaf
  | [] => []
  | level :: outer => Segment.leavesOf level.after ++ leavesAfter outer

/-- A query at a place in a tree keeps its leaves, between those of the rest of the tree. -/
theorem leaves_place (q : Query) (levels : List Surrounding) :
    (place q levels).leaves = leavesBefore levels ++ q.leaves ++ leavesAfter levels := by
  induction levels generalizing q with
  | nil => simp [place, leavesBefore, leavesAfter]
  | cons level outer ih =>
    rw [place, ih, leavesBefore, leavesAfter]
    simp [Query.leaves, Query.asSegment, Segment.leavesOf_append, Segment.leavesOf, Segment.leaves]

end Surrounding

namespace Compiler

/-- A query at a place in a tree writes its leaves with the numbers that follow those of the
values before the place. -/
theorem compile_place (c : Compiler) (q : Query) (levels : List Surrounding) :
    c.compile (Surrounding.place q levels) =
      ⟨c.finish (Leaf.textFrom c.placeholder 0 (Surrounding.leavesBefore levels) ++
          Leaf.textFrom c.placeholder (Leaf.count (Surrounding.leavesBefore levels)) q.leaves ++
          Leaf.textFrom c.placeholder
            (Leaf.count (Surrounding.leavesBefore levels) + Leaf.count q.leaves)
            (Surrounding.leavesAfter levels)),
        Leaf.values (Surrounding.leavesBefore levels) ++ Leaf.values q.leaves ++
          Leaf.values (Surrounding.leavesAfter levels)⟩ := by
  rw [compile_query, Surrounding.leaves_place]
  simp only [Leaf.textFrom_append, Leaf.count_append, Leaf.values_append, Nat.zero_add]

/-- Trees with the same leaves compile alike. -/
theorem compile_congr (c : Compiler) {q r : Query} (h : q.leaves = r.leaves) :
    c.compile q = c.compile r := by
  rw [compile_query, compile_query, h]

end Compiler

end SqlFragments
