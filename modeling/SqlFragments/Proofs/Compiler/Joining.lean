import SqlFragments.Proofs.Compiler.Flattening

/-!
# Parts with a separator between neighbours

A builder with a separator is a run of appends, and its leaves are those of what was
appended with the separator between neighbours.  The text of such leaves is the texts of
the parts, joined by the separator; the values are numbered through all parts, and the
separator brings none.

Main results:

- `Builder.segments_foldl_push_joined`: the segments after a run of appends.
- `Builder.Joins.leaves_build`: the leaves after a run of appends.
- `Leaf.textFrom_joined`: the text of joined leaves is the joined texts of the parts.
-/

namespace SqlFragments

/-! ## Leaves -/

namespace Leaf

/-- The leaves of all parts, with a separator between neighbours. -/
def joined (separator : String) (parts : List (List Leaf)) : List Leaf :=
  [.literal separator].intercalate parts

/-- The texts of parts that follow each other: each part has the values of all parts before
it in front, and `start` more. -/
def textsFrom (placeholder : Placeholder) (start : Nat) : List (List Leaf) → List String
  | [] => []
  | part :: rest =>
    textFrom placeholder start part :: textsFrom placeholder (start + count part) rest

@[simp]
theorem joined_nil (separator : String) : joined separator [] = [] := rfl

@[simp]
theorem joined_singleton (separator : String) (part : List Leaf) :
    joined separator [part] = part := List.intercalate_singleton

/-- The first of several parts is followed by a separator. -/
theorem joined_cons_cons (separator : String) (part next : List Leaf)
    (rest : List (List Leaf)) :
    joined separator (part :: next :: rest) =
      part ++ .literal separator :: joined separator (next :: rest) := by
  rw [joined, List.intercalate_cons_cons, List.append_assoc]
  rfl

/-- The values of several parts are those of each part in turn. -/
theorem values_flatten (parts : List (List Leaf)) :
    values parts.flatten = parts.flatMap values := by
  rw [values, List.filterMap_flatten, List.flatMap_def]
  rfl

/-- The separator brings no values. -/
theorem values_joined (separator : String) (parts : List (List Leaf)) :
    values (joined separator parts) = parts.flatMap values := by
  induction parts with
  | nil => rfl
  | cons part rest ih =>
    cases rest with
    | nil => simp
    | cons next rest => rw [joined_cons_cons, values_append, values_cons_literal, ih]; rfl

/-- The text of joined leaves is the texts of the parts, joined. -/
theorem textFrom_joined (placeholder : Placeholder) (separator : String) (start : Nat)
    (parts : List (List Leaf)) :
    textFrom placeholder start (joined separator parts) =
      separator.intercalate (textsFrom placeholder start parts) := by
  induction parts generalizing start with
  | nil => simp [textsFrom]
  | cons part rest ih =>
    cases rest with
    | nil => simp [textsFrom]
    | cons next rest =>
      rw [joined_cons_cons, textFrom_append, textFrom_cons, count_literal, Nat.add_zero, ih]
      simp only [textsFrom, text, String.intercalate_cons_cons, String.append_assoc]

/-- Every part has one text. -/
@[simp]
theorem length_textsFrom (placeholder : Placeholder) (start : Nat) (parts : List (List Leaf)) :
    (textsFrom placeholder start parts).length = parts.length := by
  induction parts generalizing start with
  | nil => rfl
  | cons part rest ih => rw [textsFrom, List.length_cons, ih, List.length_cons]

/-- A text is that of a part, with some number of values in front. -/
theorem exists_of_mem_textsFrom {placeholder : Placeholder} {start : Nat}
    {parts : List (List Leaf)} {t : String} (h : t ∈ textsFrom placeholder start parts) :
    ∃ part ∈ parts, ∃ before, t = textFrom placeholder before part := by
  induction parts generalizing start with
  | nil => simp [textsFrom] at h
  | cons part rest ih =>
    rcases List.mem_cons.mp h with rfl | h
    · exact ⟨part, by simp, start, rfl⟩
    · rcases ih h with ⟨other, hother, before, rfl⟩
      exact ⟨other, by simp [hother], before, rfl⟩

end Leaf

/-! ## Runs of appends -/

/-- The leaves of segments are those of each segment in turn. -/
theorem Segment.leavesOf_eq_flatten (segments : List Segment) :
    leavesOf segments = (segments.map leaves).flatten := by
  induction segments with
  | nil => rfl
  | cons segment rest ih => rw [leavesOf, ih, List.map_cons, List.flatten_cons]

namespace Builder

/-- A list with separators is its first element and then every other one behind a separator. -/
theorem intersperse_cons_eq {α : Type} (separator first : α) (others : List α) :
    (first :: others).intersperse separator =
      first :: others.flatMap fun x => [separator, x] := by
  induction others generalizing first with
  | nil => rfl
  | cons next others ih => rw [List.intersperse_cons_cons, ih]; rfl

/-- Appending items is pushing their segments. -/
theorem rawAll_eq_foldl_push (b : Builder) (items : List Item) :
    b.rawAll items = (items.map Item.segment).foldl push b := by
  rw [List.foldl_map]
  rfl

/-- The segments after a run of appends have the separator between neighbours. -/
theorem segments_foldl_push_joined (separator : String) (segments : List Segment) :
    (segments.foldl push (joined separator)).segments =
      segments.intersperse (.literal separator) := by
  cases segments with
  | nil => rfl
  | cons segment rest =>
    have hfirst : (joined separator).push segment = ⟨[segment], some separator⟩ := rfl
    rw [List.foldl_cons, hfirst, segments_foldl_push (.inr (List.cons_ne_nil _ _)),
      intersperse_cons_eq]
    rfl

/-- The leaves of segments with a separator between neighbours are those of the segments,
joined. -/
theorem leavesOf_intersperse (separator : String) (segments : List Segment) :
    Segment.leavesOf (segments.intersperse (.literal separator)) =
      Leaf.joined separator (segments.map Segment.leaves) := by
  have hmap : (segments.intersperse (.literal separator)).map Segment.leaves =
      (segments.map Segment.leaves).intersperse [.literal separator] := by
    cases segments with
    | nil => rfl
    | cons segment rest =>
      simp [intersperse_cons_eq, List.map_flatMap, List.flatMap_map, Segment.leaves]
  rw [Segment.leavesOf_eq_flatten, hmap, Leaf.joined, List.intercalate]

/-- A builder is a run of appends with a separator, and the parts are the leaves of what
was appended. -/
def Joins (b : Builder) (separator : String) (parts : List (List Leaf)) : Prop :=
  ∃ segments : List Segment,
    b = segments.foldl push (joined separator) ∧ parts = segments.map Segment.leaves

namespace Joins

variable {b : Builder} {separator : String} {parts : List (List Leaf)}

/-- A builder starts without parts. -/
theorem start (separator : String) : (Builder.joined separator).Joins separator [] :=
  ⟨[], rfl, rfl⟩

/-- One append adds one part. -/
theorem push (h : b.Joins separator parts) (segment : Segment) :
    (b.push segment).Joins separator (parts ++ [segment.leaves]) := by
  obtain ⟨segments, rfl, rfl⟩ := h
  exact ⟨segments ++ [segment], by simp, by simp⟩

/-- An appended item is one more part. -/
theorem raw (h : b.Joins separator parts) (item : Item) :
    (b.raw item).Joins separator (parts ++ [item.segment.leaves]) :=
  h.push item.segment

/-- A bound value is one more part. -/
theorem value (h : b.Joins separator parts) (v : Value) :
    (b.value v).Joins separator (parts ++ [[.value v]]) :=
  h.push (.value v)

/-- The leaves of what a builder has built are the parts, joined. -/
theorem leaves_build (h : b.Joins separator parts) :
    b.build.leaves = Leaf.joined separator parts := by
  obtain ⟨segments, rfl, rfl⟩ := h
  rw [Query.leaves, build, segments_foldl_push_joined, leavesOf_intersperse]

end Joins

end Builder

end SqlFragments
