import SqlFragments.Item

/-!
# Building a query step by step

A builder collects segments.  With a separator, every append after the first is
preceded by the separator as a literal of its own; an embedded query keeps its
own segments and is never entered.

Main results:

- `Builder.segments_push`: what one append adds.
- `Builder.segments_foldl_push`: what a run of appends adds.
- `Builder.raw_eq_arg`: a tree appended as code and interpolated gives one builder.
- `Builder.rawAll_append`: a run of items may be divided at any place.
-/

namespace SqlFragments

/-- What a builder can be made from besides its separator alone. -/
structure BuilderOptions where
  /-- The separator between appends, if there is one. -/
  join : Option String
deriving DecidableEq, Repr

/-- A query under construction. -/
structure Builder where
  segments : List Segment
  /-- The separator between appends; an empty separator is a literal too. -/
  join : Option String
deriving Repr

namespace Builder

/-- A builder without a separator. -/
def new : Builder := ⟨[], none⟩

/-- A builder with a separator. -/
def joined (separator : String) : Builder := ⟨[], some separator⟩

/-- A builder made from options. -/
def ofOptions (options : BuilderOptions) : Builder := ⟨[], options.join⟩

/-- What stands before the next segment. -/
def separation (b : Builder) : List Segment :=
  match b.join with
  | some separator => if b.segments.isEmpty then [] else [.literal separator]
  | none => []

/-- Appends a segment, after the separator if this is not the first append. -/
def push (b : Builder) (segment : Segment) : Builder :=
  { b with segments := b.segments ++ b.separation ++ [segment] }

/-- Appends a trusted item. -/
def raw (b : Builder) (item : Item) : Builder := b.push item.segment

/-- Appends trusted items in order, each by itself. -/
def rawAll (b : Builder) (items : List Item) : Builder := items.foldl raw b

/-- Appends a bound value. -/
def value (b : Builder) (v : Value) : Builder := b.push (.value v)

/-- Appends an argument. -/
def arg (b : Builder) (item : Argument) : Builder := b.push item.segment

/-- Whether nothing has been appended. -/
def isEmpty (b : Builder) : Bool := b.segments.isEmpty

/-- The query of the segments appended so far. -/
def build (b : Builder) : Query := ⟨b.segments⟩

instance : ToQuery Builder where
  toQuery := build
  heldSegments b := some b.segments

@[simp]
theorem join_push (b : Builder) (segment : Segment) : (b.push segment).join = b.join := rfl

/-- One append adds the separation and the segment at the end. -/
theorem segments_push (b : Builder) (segment : Segment) :
    (b.push segment).segments = b.segments ++ b.separation ++ [segment] := rfl

/-- After the first append, or without a separator, an append leaves the separation as it
is. -/
theorem separation_push {b : Builder} (h : b.join = none ∨ b.segments ≠ []) (segment : Segment) :
    (b.push segment).separation = b.separation := by
  rcases h with hjoin | hne
  · simp [separation, hjoin]
  · simp [separation, segments_push, hne]

/-- In a run of appends every segment has the same separation before it. -/
theorem segments_foldl_push {b : Builder} (h : b.join = none ∨ b.segments ≠ [])
    (segments : List Segment) :
    (segments.foldl push b).segments =
      b.segments ++ segments.flatMap fun segment => b.separation ++ [segment] := by
  induction segments generalizing b with
  | nil => simp
  | cons segment rest ih =>
    have hnext : (b.push segment).segments ≠ [] := by simp [segments_push]
    rw [List.foldl_cons, ih (.inr hnext), separation_push h, segments_push, List.flatMap_cons]
    simp only [List.append_assoc]

@[simp]
theorem toQuery_eq (b : Builder) : toQuery b = b.build := rfl

/-- A tree appended as code and interpolated as an argument gives one builder. -/
theorem raw_eq_arg (b : Builder) (q : Query) : b.raw (.query q) = b.arg (.query q) := rfl

@[simp]
theorem rawAll_nil (b : Builder) : b.rawAll [] = b := rfl

@[simp]
theorem rawAll_cons (b : Builder) (item : Item) (items : List Item) :
    b.rawAll (item :: items) = (b.raw item).rawAll items := rfl

/-- A run of items may be divided at any place. -/
theorem rawAll_append (b : Builder) (items others : List Item) :
    b.rawAll (items ++ others) = (b.rawAll items).rawAll others :=
  List.foldl_append

end Builder

end SqlFragments
