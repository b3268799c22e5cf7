import SqlFragments.Proofs.Compiler.Joining

/-!
# Separators between appends

A builder decides from the segments that it has whether a separator comes before the next
one, and some of these segments are separators themselves.  The calls of a run still add up:
every item is one segment, blank or not, and the separator stands between neighbours and at
no end.  A builder that is appended to another is one segment of it, so that each separator
joins the items of its own builder only, at every depth.

Main results:

- `Builder.run_eq_foldl_push`: a run of calls appends its items one by one.
- `Builder.segments_run`: the segments after a run of calls.
- `Builder.compile_run`: the command of a run is the texts of its items, joined.
- `Builder.Nested.textsFrom_toCalls`: an embedded builder has the text of its own items,
  joined by its own separator.
- `Builder.separators_join_own_items`: the segments and the command of every run, also of
  runs inside runs.
-/

namespace SqlFragments

/-! ## Parts that follow each other -/

namespace Leaf

/-- The text of parts without a separator is the texts of the parts, joined by nothing. -/
theorem textFrom_flatten_eq (p : Placeholder) (start : Nat) (parts : List (List Leaf)) :
    textFrom p start parts.flatten = "".intercalate (textsFrom p start parts) := by
  induction parts generalizing start with
  | nil => rfl
  | cons part rest ih =>
    cases rest with
    | nil => simp [textsFrom]
    | cons next rest =>
      rw [List.flatten_cons, textFrom_append, ih]
      simp only [textsFrom, String.intercalate_cons_cons, String.append_empty]

end Leaf

namespace Segment

/-- The values of two runs of segments are counted apart. -/
theorem valueCountOf_append (segments others : List Segment) :
    valueCountOf (segments ++ others) = valueCountOf segments + valueCountOf others := by
  simp only [valueCountOf_eq, leavesOf_append, List.filterMap_append, List.length_append]

/-- A segment counts the values of its leaves. -/
theorem count_leaves (segment : Segment) : Leaf.count segment.leaves = segment.valueCount := by
  have h := valueCountOf_eq [segment]
  simpa [Leaf.count, Leaf.values, valueCountOf, leavesOf] using h.symm

/-- Segments are written part by part, and the numbers go on. -/
theorem textsFrom_append (p : Placeholder) (start : Nat) (segments others : List Segment) :
    Leaf.textsFrom p start ((segments ++ others).map leaves) =
      Leaf.textsFrom p start (segments.map leaves) ++
        Leaf.textsFrom p (start + valueCountOf segments) (others.map leaves) := by
  induction segments generalizing start with
  | nil => rfl
  | cons segment rest ih =>
    simp only [List.cons_append, List.map_cons, Leaf.textsFrom, ih, count_leaves, valueCountOf,
      Nat.add_assoc]

end Segment

namespace Builder

/-! ## Runs of calls -/

/-- A call that appends to a builder. -/
inductive Call where
  | raw (item : Item)
  | rawAll (items : List Item)
  | value (v : Value)
  | arg (argument : Argument)

namespace Call

/-- A builder after one call. -/
def apply (b : Builder) : Call → Builder
  | .raw item => b.raw item
  | .rawAll items => b.rawAll items
  | .value v => b.value v
  | .arg argument => b.arg argument

/-- What a call appends, one segment for each item. -/
def segments : Call → List Segment
  | .raw item => [item.segment]
  | .rawAll items => items.map Item.segment
  | .value v => [.value v]
  | .arg argument => [argument.segment]

/-- A call as calls with one item each. -/
def singly : Call → List Call
  | .rawAll items => items.map .raw
  | call => [call]

/-- A call appends its items one by one. -/
theorem apply_eq_foldl_push (b : Builder) (call : Call) :
    apply b call = call.segments.foldl push b := by
  cases call with
  | raw item => rfl
  | rawAll items => exact b.rawAll_eq_foldl_push items
  | value v => rfl
  | arg argument => rfl

/-- Items appended one by one are those of the call. -/
theorem flatMap_segments_singly (call : Call) : call.singly.flatMap segments = call.segments := by
  cases call with
  | raw item => rfl
  | rawAll items => rw [singly, List.flatMap_map, segments, List.map_eq_flatMap]; rfl
  | value v => rfl
  | arg argument => rfl

end Call

/-- The builder that a run of calls makes, from one with or without a separator and without
segments. -/
def run (join : Option String) (calls : List Call) : Builder :=
  calls.foldl Call.apply (ofOptions ⟨join⟩)

/-- What a run of calls appends, item by item. -/
def appended (calls : List Call) : List Segment := calls.flatMap Call.segments

/-- Segments with a separator between neighbours, if there is a separator. -/
def separated (join : Option String) (segments : List Segment) : List Segment :=
  join.elim segments fun separator => segments.intersperse (.literal separator)

/-- A run of calls appends its items one by one. -/
theorem run_eq_foldl_push (join : Option String) (calls : List Call) :
    run join calls = (appended calls).foldl push (ofOptions ⟨join⟩) := by
  have happly : Call.apply = fun b call => call.segments.foldl push b :=
    funext fun b => funext fun call => call.apply_eq_foldl_push b
  rw [run, appended, List.foldl_flatMap, happly]

/-- Appends leave the separator as it is. -/
theorem join_foldl_push (b : Builder) (segments : List Segment) :
    (segments.foldl push b).join = b.join := by
  induction segments generalizing b with
  | nil => rfl
  | cons segment rest ih => rw [List.foldl_cons, ih, join_push]

/-- After a run of calls the separator stands between neighbours. -/
theorem segments_run (join : Option String) (calls : List Call) :
    (run join calls).segments = separated join (appended calls) := by
  rw [run_eq_foldl_push]
  cases join with
  | none =>
    have hflat : ∀ segments : List Segment,
        (segments.flatMap fun segment => [segment]) = segments := List.flatMap_singleton'
    rw [segments_foldl_push (.inl rfl)]
    exact hflat (appended calls)
  | some separator => exact segments_foldl_push_joined separator (appended calls)

/-- How items are divided into calls makes no difference. -/
theorem run_flatMap_singly (join : Option String) (calls : List Call) :
    run join (calls.flatMap Call.singly) = run join calls := by
  have happended : appended (calls.flatMap Call.singly) = appended calls := by
    simp only [appended, List.flatMap_assoc, Call.flatMap_segments_singly]
  rw [run_eq_foldl_push, happended, ← run_eq_foldl_push]

/-! ## Commands of runs -/

/-- The leaves after a run of calls. -/
theorem leaves_run (join : Option String) (calls : List Call) :
    (run join calls).build.leaves =
      join.elim ((appended calls).map Segment.leaves).flatten fun separator =>
        Leaf.joined separator ((appended calls).map Segment.leaves) := by
  cases join with
  | none =>
    rw [Query.leaves, build, segments_run]
    exact Segment.leavesOf_eq_flatten (appended calls)
  | some separator =>
    have hjoins : (run (some separator) calls).Joins separator
        ((appended calls).map Segment.leaves) :=
      ⟨appended calls, run_eq_foldl_push (some separator) calls, rfl⟩
    exact hjoins.leaves_build

/-- The text of a run is the texts of its items, joined by the separator; the numbers of the
values go on from item to item. -/
theorem textFrom_run (p : Placeholder) (start : Nat) (join : Option String) (calls : List Call) :
    Leaf.textFrom p start (run join calls).build.leaves =
      (join.getD "").intercalate
        (Leaf.textsFrom p start ((appended calls).map Segment.leaves)) := by
  rw [leaves_run]
  cases join with
  | none => exact Leaf.textFrom_flatten_eq p start _
  | some separator => exact Leaf.textFrom_joined p separator start _

/-- The values of a run are those of its items; the separator brings none. -/
theorem values_run (join : Option String) (calls : List Call) :
    Leaf.values (run join calls).build.leaves =
      (appended calls).flatMap fun segment => Leaf.values segment.leaves := by
  rw [leaves_run, ← List.flatMap_map]
  cases join with
  | none => exact Leaf.values_flatten _
  | some separator => exact Leaf.values_joined separator _

/-- A run has the values of its items. -/
theorem valueCount_run (join : Option String) (calls : List Call) :
    (run join calls).build.valueCount = Segment.valueCountOf (appended calls) := by
  have hitems : Leaf.values (Segment.leavesOf (appended calls)) =
      (appended calls).flatMap fun segment => Leaf.values segment.leaves := by
    rw [Segment.leavesOf_eq_flatten, Leaf.values_flatten, List.flatMap_map]
  rw [Query.valueCount_eq, Segment.valueCountOf_eq]
  exact congrArg List.length ((values_run join calls).trans hitems.symm)

/-- Without normalization and post-processing a run compiles to the texts of its items,
joined, and to their values. -/
theorem compile_run (p : Placeholder) (join : Option String) (calls : List Call) :
    (Compiler.mk p false none).compile (run join calls) =
      ⟨(join.getD "").intercalate (Leaf.textsFrom p 0 ((appended calls).map Segment.leaves)),
        (appended calls).flatMap fun segment => Leaf.values segment.leaves⟩ := by
  have hbuild : (Compiler.mk p false none).compile (run join calls) =
      (Compiler.mk p false none).compile (run join calls).build := rfl
  rw [hbuild, Compiler.compile_query, textFrom_run, values_run]
  rfl

/-! ## Runs inside runs -/

/-- A call whose item may be a builder that is made by a run of its own. -/
inductive Nested where
  | call (call : Call)
  /-- A builder with its own separator and its own run, appended as code or interpolated. -/
  | builder (interpolated : Bool) (join : Option String) (inner : List Nested)

namespace Nested

/-- Induction over a run and over the runs inside it. -/
theorem list_induction {motive : List Nested → Prop} (nil : motive [])
    (call : ∀ c rest, motive rest → motive (.call c :: rest))
    (builder : ∀ interpolated join inner rest, motive inner → motive rest →
      motive (.builder interpolated join inner :: rest))
    (nested : List Nested) : motive nested :=
  @Nested.rec_1 (fun first => ∀ rest, motive rest → motive (first :: rest)) motive
    (fun c rest => call c rest)
    (fun interpolated join inner hinner rest => builder interpolated join inner rest hinner) nil
    (fun _ rest hhead hrest => hhead rest hrest) nested

mutual

/-- The call that appends the item, once the builder inside it has been made. -/
def toCall : Nested → Call
  | .call c => c
  | .builder interpolated join inner =>
    let made := run join (toCalls inner)
    if interpolated then .arg (toArgument made) else .raw (toItem made)

/-- The calls of a run, the builders inside it having been made. -/
def toCalls : List Nested → List Call
  | [] => []
  | nested :: rest => nested.toCall :: toCalls rest

end

mutual

/-- The number of values in the items of a call. -/
def valueCount : Nested → Nat
  | .call c => Segment.valueCountOf c.segments
  | .builder _ _ inner => valueCountOf inner

/-- The number of values in the items of a run. -/
def valueCountOf : List Nested → Nat
  | [] => 0
  | nested :: rest => nested.valueCount + valueCountOf rest

end

mutual

/-- The texts of the items of a call that has `start` values before it.  A builder has one
text, its own items joined by its own separator. -/
def texts (p : Placeholder) (start : Nat) : Nested → List String
  | .call c => Leaf.textsFrom p start (c.segments.map Segment.leaves)
  | .builder _ join inner => [(join.getD "").intercalate (textsOf p start inner)]

/-- The texts of the items of a run, each with the values of all items before it in front. -/
def textsOf (p : Placeholder) (start : Nat) : List Nested → List String
  | [] => []
  | nested :: rest => nested.texts p start ++ textsOf p (start + nested.valueCount) rest

end

/-- A builder is one item, whichever way it is appended: the segments of its run. -/
theorem segments_builder (interpolated : Bool) (join : Option String) (inner : List Nested) :
    (builder interpolated join inner).toCall.segments =
      [.subtree (run join (toCalls inner)).segments] := by
  cases interpolated <;> simp [toCall] <;> rfl

/-- The segments of a run of calls are those of the first call and of the others. -/
theorem appended_cons (first : Call) (rest : List Call) :
    appended (first :: rest) = first.segments ++ appended rest := List.flatMap_cons

/-- The number of values in a run, counted through the runs inside it. -/
theorem valueCountOf_toCalls (nested : List Nested) :
    Segment.valueCountOf (appended (toCalls nested)) = valueCountOf nested := by
  induction nested using list_induction with
  | nil => rfl
  | call c rest ih => rw [toCalls, appended_cons, Segment.valueCountOf_append, ih]; rfl
  | builder interpolated join inner rest hinner hrest =>
    have hbuilder : Segment.valueCountOf [.subtree (run join (toCalls inner)).segments] =
        (run join (toCalls inner)).build.valueCount := rfl
    rw [toCalls, appended_cons, segments_builder, Segment.valueCountOf_append, hbuilder,
      valueCount_run, hinner, hrest]
    rfl

/-- The items of a run have their texts: those of an embedded builder are joined by its own
separator, and the outer separator stays outside. -/
theorem textsFrom_toCalls (p : Placeholder) (start : Nat) (nested : List Nested) :
    Leaf.textsFrom p start ((appended (toCalls nested)).map Segment.leaves) =
      textsOf p start nested := by
  induction nested using list_induction generalizing start with
  | nil => rfl
  | call c rest ih => rw [toCalls, appended_cons, Segment.textsFrom_append, ih]; rfl
  | builder interpolated join inner rest hinner hrest =>
    have htext : Leaf.textFrom p start (run join (toCalls inner)).build.leaves =
        (join.getD "").intercalate (textsOf p start inner) := by
      rw [textFrom_run, hinner]
    have hcount : Segment.valueCountOf [.subtree (run join (toCalls inner)).segments] =
        valueCountOf inner := by
      rw [← valueCountOf_toCalls inner, ← valueCount_run join]
      rfl
    rw [toCalls, appended_cons, segments_builder, Segment.textsFrom_append, hcount, hrest,
      textsOf, texts, ← htext]
    rfl

end Nested

/-- Every run of calls, with or without a separator, appends one segment for each item, with
the separator as a literal between neighbours and at no end; the items may be divided among
calls in any way.  Its command is the texts of its items, joined by the separator, and the
values are numbered through all of them.  A builder inside a run is one item, the segments
of its own run, and its text is that of its items joined by its own separator, whatever the
separators around it and however deep it stands. -/
theorem separators_join_own_items :
    (∀ join calls, (run join calls).segments = separated join (appended calls) ∧
      (run join calls).join = join ∧
      run join calls = run join (calls.flatMap Call.singly)) ∧
    (∀ p join calls, (Compiler.mk p false none).compile (run join calls) =
      ⟨(join.getD "").intercalate (Leaf.textsFrom p 0 ((appended calls).map Segment.leaves)),
        (appended calls).flatMap fun segment => Leaf.values segment.leaves⟩) ∧
    (∀ interpolated join inner, (Nested.builder interpolated join inner).toCall.segments =
      [.subtree (separated join (appended (Nested.toCalls inner)))]) ∧
    ∀ p join nested,
      ((Compiler.mk p false none).compile (run join (Nested.toCalls nested))).command =
        (join.getD "").intercalate (Nested.textsOf p 0 nested) := by
  refine ⟨?run, compile_run, ?embedded, ?nested⟩
  case run =>
    intro join calls
    refine ⟨segments_run join calls, ?_, (run_flatMap_singly join calls).symm⟩
    rw [run_eq_foldl_push]
    exact join_foldl_push _ _
  case embedded =>
    intro interpolated join inner
    rw [Nested.segments_builder, segments_run]
  case nested =>
    intro p join nested
    rw [compile_run, Nested.textsFrom_toCalls]

/-- Blank code is an item as any other, and the hyphen stays between the two values. -/
example :
    ((Compiler.mk .dollar false none).compile (run (some ",") (Nested.toCalls
      [.call (.rawAll [.code "a", .code ""]),
        .builder true (some "-") [.call (.value .null), .call (.value .null)],
        .call (.value .null)]))).command = "a,,$1-$2,$3" := by
  decide +kernel

end Builder

end SqlFragments
