import SqlFragments.Proofs.Compiler.Flattening
import SqlFragments.Proofs.Text.Canonical

/-!
# The command of an object

An object that stands for a query is compiled to the text of the leaves of its tree.  A
compiler gives this text out as it is or with its words spaced, and then as the function at
the end makes it.  The nesting of the tree has no part in this: a tree in a place of another
one writes what its segments would write there, with the numbers of that place.

Main results:

- `GivesOut.unique`: a compiler gives a text out in one way.
- `compile_determined_by_leaves`: the command and the bindings of every object are those of
  its leaves, wherever the leaves are nested.
-/

namespace SqlFragments

open Text

namespace Compiler

/-! ## What is given out -/

/-- How a compiler gives a text out.  Without normalization the text is kept; with it, the
words of the text are written with one space between neighbours.  A function at the end is
applied to that, and without one it is the command. -/
inductive GivesOut : Compiler → String → String → Prop
  | plain (p : Placeholder) (post : Option (String → String)) (text : String) :
      GivesOut ⟨p, false, post⟩ text (post.getD id text)
  | normalized (p : Placeholder) (post : Option (String → String)) {text : String}
      {found : List (List Char)} (h : HasWords text.toList found) :
      GivesOut ⟨p, true, post⟩ text (post.getD id (" ".intercalate (found.map String.ofList)))

/-- A text is collapsed to its words with one space between neighbours. -/
theorem collapseBlanks_eq_intercalate {text : String} {found : List (List Char)}
    (h : HasWords text.toList found) :
    collapseBlanks text = " ".intercalate (found.map String.ofList) := by
  have hparts : (found.map String.ofList).map String.toList = found := by simp
  rw [← String.toList_inj, toList_collapseBlanks, String.toList_intercalate, hparts, spaced,
    hasWords_iff.mp h]
  rfl

/-- A compiler gives a text out in one way. -/
theorem GivesOut.unique {c : Compiler} {text command other : String}
    (h : c.GivesOut text command) (hother : c.GivesOut text other) : command = other := by
  cases h with
  | plain p post text =>
    cases hother with
    | plain => rfl
  | normalized p post hfound =>
    cases hother with
    | normalized _ _ hwords => rw [← hasWords_iff.mp hfound, hasWords_iff.mp hwords]

/-- What a compiler does with a text at the end is to give it out. -/
theorem givesOut_finish (c : Compiler) (text : String) : c.GivesOut text (c.finish text) := by
  obtain ⟨p, normalizes, post⟩ := c
  have hpost : ∀ shown : String, post.elim shown (fun f => f shown) = post.getD id shown := by
    intro shown
    cases post <;> rfl
  cases normalizes with
  | false =>
    have hcommand : Compiler.finish ⟨p, false, post⟩ text = post.getD id text := hpost text
    rw [hcommand]
    exact .plain p post text
  | true =>
    have hwords := hasWords_words text.toList
    have hcommand : Compiler.finish ⟨p, true, post⟩ text =
        post.getD id (" ".intercalate ((words text.toList).map String.ofList)) := by
      rw [← collapseBlanks_eq_intercalate hwords]
      exact hpost (collapseBlanks text)
    rw [hcommand]
    exact .normalized p post hwords

/-! ## Objects -/

/-- What stands for a query compiles to the leaves of its tree, and nothing else compiles.  The
bindings are the values among the leaves, and the command is what the compiler gives out for
the text of the leaves, the values numbered over the whole tree.  So in every tree with holes,
at any depth, the segments of a subtree may stand in its place, as may any segments with the
same leaves; and a tree in several holes has in each the number of all the values before it. -/
theorem compile_determined_by_leaves (c : Compiler) :
    (∀ x : Script.Object, x.query? = none → x.compile? c = none) ∧
    (∀ (x : Script.Object) (q : Query), x.query? = some q →
      ∃ command, c.GivesOut (Leaf.textFrom c.placeholder 0 q.leaves) command ∧
        x.compile? c = some ⟨command, Leaf.values q.leaves⟩) ∧
    (∀ q : Query, (c.compile q).bindings.length = q.valueCount) ∧
    (∀ (frames : List Frame) (filling other : List Segment),
      Segment.leavesOf filling = Segment.leavesOf other →
      c.compile (Query.mk (Frame.fillAll filling frames)) =
        c.compile (Query.mk (Frame.fillAll other frames))) ∧
    (∀ (frames : List Frame) (inner : List Segment),
      c.compile (Query.mk (Frame.fillAll [.subtree inner] frames)) =
        c.compile (Query.mk (Frame.fillAll inner frames))) ∧
    ∀ (frames : List Frame) (inner : List Segment),
      let parts := Frame.partsOf (Segment.leavesOf inner) frames
      ∃ command,
        c.GivesOut (String.join (parts.mapIdx fun i part =>
          Leaf.textFrom c.placeholder (Leaf.count (parts.take i).flatten) part)) command ∧
        c.compile (Query.mk (Frame.fillAll [.subtree inner] frames)) =
          ⟨command, Leaf.values parts.flatten⟩ := by
  refine ⟨?none, ?objects, c.length_bindings, ?leaves, ?inPlace, ?repeated⟩
  case none =>
    intro x hx
    rw [x.compile?_eq, hx, Option.map_none]
  case objects =>
    intro x q hx
    refine ⟨_, c.givesOut_finish _, ?_⟩
    rw [x.compile?_eq, hx, Option.map_some, c.compile_query]
  case leaves =>
    intro frames filling other h
    exact c.compile_congr (Frame.leavesOf_fillAll_congr h frames)
  case inPlace =>
    intro frames inner
    exact c.compile_congr (Frame.leavesOf_fillAll_congr (Frame.leavesOf_subtree inner) frames)
  case repeated =>
    intro frames inner
    have hleaves : (Query.mk (Frame.fillAll [.subtree inner] frames)).leaves =
        (Frame.partsOf (Segment.leavesOf inner) frames).flatten := by
      rw [Query.leaves, Frame.leavesOf_fillAll, Frame.leavesOf_subtree]
    refine ⟨_, c.givesOut_finish _, ?_⟩
    rw [compile_query, hleaves, Leaf.textFrom_flatten]
    simp only [Nat.zero_add]

/-- A tree with blanks and two values, nested once and in two holes of which one lies deeper,
and the same segments in a builder, for a compiler that normalizes and ends every command. -/
theorem compile_determined_by_leaves_nested :
    let c : Compiler := ⟨.dollar, true, some (· ++ ";")⟩
    let inner : List Segment := [.value (.int 1), .literal " +\n", .value (.int 2)]
    let other : List Segment := [.subtree [.value (.int 1)], .literal " +\n", .value (.int 2)]
    let frames : List Frame :=
      [.segment (.literal " SELECT "), .subtree [.hole, .segment (.literal ",\t")], .hole]
    let compiled : Compiled :=
      ⟨"SELECT $1 + $2, $3 + $4;", [.int 1, .int 2, .int 1, .int 2]⟩
    let value : Script.Object := .value (.int 1)
    let builder : Script.Object := .builder ⟨inner, none⟩
    (value.query? = none ∧ value.compile? c = none) ∧
      (builder.query? = some ⟨inner⟩ ∧
        builder.compile? c = some ⟨"$1 + $2;", [.int 1, .int 2]⟩) ∧
      Segment.leavesOf inner = Segment.leavesOf other ∧
      c.compile (Query.mk (Frame.fillAll [.subtree inner] frames)) = compiled ∧
      c.compile (Query.mk (Frame.fillAll inner frames)) = compiled ∧
      c.compile (Query.mk (Frame.fillAll other frames)) = compiled := by
  intro c inner other frames compiled value builder
  obtain ⟨hnone, hobjects, -, hleaves, hinPlace, hrepeated⟩ := compile_determined_by_leaves c
  have hsame : Segment.leavesOf inner = Segment.leavesOf other := rfl
  have hbuilder : builder.compile? c = some ⟨"$1 + $2;", [.int 1, .int 2]⟩ := by
    obtain ⟨command, hgiven, hcompile⟩ := hobjects builder ⟨inner⟩ rfl
    have hwords : HasWords (Leaf.textFrom .dollar 0 (Segment.leavesOf inner)).toList
        ["$1".toList, "+".toList, "$2".toList] := hasWords_iff.mpr (by decide +kernel)
    rw [hcompile, hgiven.unique (.normalized .dollar _ hwords)]
    decide +kernel
  have htree : c.compile (Query.mk (Frame.fillAll [.subtree inner] frames)) = compiled := by
    obtain ⟨command, hgiven, htree⟩ := hrepeated frames inner
    have hwords : HasWords (String.join ((Frame.partsOf (Segment.leavesOf inner) frames).mapIdx
        fun i part => Leaf.textFrom c.placeholder
          (Leaf.count ((Frame.partsOf (Segment.leavesOf inner) frames).take i).flatten)
            part)).toList
        ["SELECT".toList, "$1".toList, "+".toList, "$2,".toList, "$3".toList, "+".toList,
          "$4".toList] := hasWords_iff.mpr (by decide +kernel)
    rw [htree, hgiven.unique (.normalized .dollar _ hwords)]
    decide +kernel
  have hplain := (hinPlace frames inner).symm.trans htree
  exact ⟨⟨rfl, hnone value rfl⟩, ⟨rfl, hbuilder⟩, hsame, htree, hplain,
    (hleaves frames inner other hsame).symm.trans hplain⟩

end Compiler

end SqlFragments
