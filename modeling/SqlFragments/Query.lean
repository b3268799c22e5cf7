import SqlFragments.Value

/-!
# Fragment trees

A query is an ordered sequence of segments, and a segment is code, a bound value
or another query.  The leaves of a query are its codes and values from left to
right, whatever the nesting; they are the view through which operations on trees
are described.

Main results:

- `Segment.list_induction`: induction over a sequence of segments and its subtrees.
- `Query.valueCount_eq`: the number of values is the number of value leaves.
- `Query.isBlank_iff`: a query is blank when its leaves are empty codes.
-/

namespace SqlFragments

/-! ## Segments -/

/-- One element of a fragment tree. -/
inductive Segment where
  /-- Code, taken as it stands. -/
  | literal (code : String)
  /-- A bound parameter. -/
  | value (v : Value)
  /-- The segments of another tree, at this place. -/
  | subtree (segments : List Segment)
deriving Repr

/-- A leaf of a fragment tree. -/
inductive Leaf where
  | literal (code : String)
  | value (v : Value)
deriving DecidableEq, Repr

namespace Leaf

/-- The value of a leaf that is one. -/
def value? : Leaf → Option Value
  | .literal _ => none
  | .value v => some v

/-- Whether a leaf gives no text. -/
def isBlank : Leaf → Bool
  | .literal code => code.isEmpty
  | .value _ => false

end Leaf

namespace Segment

/-- Induction over a sequence of segments: from the rest of the sequence and, at a
subtree, from its segments. -/
theorem list_induction {motive : List Segment → Prop} (nil : motive [])
    (literal : ∀ code rest, motive rest → motive (.literal code :: rest))
    (value : ∀ v rest, motive rest → motive (.value v :: rest))
    (subtree : ∀ inner rest, motive inner → motive rest → motive (.subtree inner :: rest))
    (segments : List Segment) : motive segments :=
  @Segment.rec_1 (fun segment => ∀ rest, motive rest → motive (segment :: rest)) motive
    (fun code rest => literal code rest) (fun v rest => value v rest)
    (fun inner hinner rest => subtree inner rest hinner) nil
    (fun _ rest hhead hrest => hhead rest hrest) segments

mutual

/-- The leaves of a segment, every subtree opened. -/
def leaves : Segment → List Leaf
  | .literal code => [.literal code]
  | .value v => [.value v]
  | .subtree inner => leavesOf inner

/-- The leaves of a sequence of segments, from left to right. -/
def leavesOf : List Segment → List Leaf
  | [] => []
  | segment :: rest => segment.leaves ++ leavesOf rest

end

mutual

/-- The number of values in a segment. -/
def valueCount : Segment → Nat
  | .literal _ => 0
  | .value _ => 1
  | .subtree inner => valueCountOf inner

/-- The number of values in a sequence of segments. -/
def valueCountOf : List Segment → Nat
  | [] => 0
  | segment :: rest => segment.valueCount + valueCountOf rest

end

mutual

/-- Whether a segment gives no text. -/
def isBlank : Segment → Bool
  | .literal code => code.isEmpty
  | .value _ => false
  | .subtree inner => areBlank inner

/-- Whether a sequence of segments gives no text. -/
def areBlank : List Segment → Bool
  | [] => true
  | segment :: rest => segment.isBlank && areBlank rest

end

mutual

/-- Equality in structure, with numeric equality of double-precision numbers. -/
def equals : Segment → Segment → Bool
  | .literal code, .literal other => code == other
  | .value v, .value w => v.equals w
  | .subtree inner, .subtree other => areEqual inner other
  | _, _ => false

/-- Equality of two sequences of segments, one by one. -/
def areEqual : List Segment → List Segment → Bool
  | [], [] => true
  | segment :: rest, other :: others => segment.equals other && areEqual rest others
  | _, _ => false

end

/-- The leaves of two runs of segments stand one after the other. -/
theorem leavesOf_append (segments others : List Segment) :
    leavesOf (segments ++ others) = leavesOf segments ++ leavesOf others := by
  induction segments with
  | nil => rfl
  | cons segment rest ih => simp [leavesOf, ih]

/-- Segments count the values of their leaves. -/
theorem valueCountOf_eq (segments : List Segment) :
    valueCountOf segments = ((leavesOf segments).filterMap Leaf.value?).length := by
  induction segments using list_induction with
  | nil => rfl
  | literal code rest ih =>
    simp [valueCountOf, valueCount, leavesOf, leaves, List.filterMap_cons, Leaf.value?, ih]
  | value v rest ih =>
    simp [valueCountOf, valueCount, leavesOf, leaves, Leaf.value?, ih, Nat.add_comm]
  | subtree inner rest hinner hrest =>
    simp [valueCountOf, valueCount, leavesOf, leaves, hinner, hrest]

/-- Segments are blank when all their leaves are. -/
theorem areBlank_eq (segments : List Segment) :
    areBlank segments = (leavesOf segments).all Leaf.isBlank := by
  induction segments using list_induction with
  | nil => rfl
  | literal code rest ih => simp [areBlank, isBlank, leavesOf, leaves, Leaf.isBlank, ih]
  | value v rest ih => simp [areBlank, isBlank, leavesOf, leaves, Leaf.isBlank]
  | subtree inner rest hinner hrest =>
    simp [areBlank, isBlank, leavesOf, leaves, hinner, hrest]

end Segment

/-! ## Queries -/

/-- A fragment tree: an ordered sequence of segments. -/
structure Query where
  segments : List Segment
deriving Repr, Inhabited

namespace Query

/-- The query without segments. -/
def empty : Query := ⟨[]⟩

/-- The query of one code. -/
def raw (code : String) : Query := ⟨[.literal code]⟩

/-- The query of one bound value. -/
def value (v : Value) : Query := ⟨[.value v]⟩

/-- A query as one segment of another. -/
def asSegment (q : Query) : Segment := .subtree q.segments

/-- The leaves of a query, from left to right. -/
def leaves (q : Query) : List Leaf := Segment.leavesOf q.segments

/-- The number of segments at the top. -/
def size (q : Query) : Nat := q.segments.length

/-- Whether there are no segments at the top. -/
def isEmpty (q : Query) : Bool := q.segments.isEmpty

/-- The number of values at any depth. -/
def valueCount (q : Query) : Nat := Segment.valueCountOf q.segments

/-- Whether the query gives no text, whatever its nesting. -/
def isBlank (q : Query) : Bool := Segment.areBlank q.segments

/-- Equality in structure, with numeric equality of double-precision numbers. -/
def equals (q r : Query) : Bool := Segment.areEqual q.segments r.segments

@[simp]
theorem leaves_empty : empty.leaves = [] := rfl

@[simp]
theorem leaves_raw (code : String) : (raw code).leaves = [.literal code] := rfl

@[simp]
theorem leaves_value (v : Value) : (value v).leaves = [.value v] := rfl

/-- A query counts the values of its leaves. -/
theorem valueCount_eq (q : Query) :
    q.valueCount = (q.leaves.filterMap Leaf.value?).length :=
  Segment.valueCountOf_eq q.segments

/-- A query is blank when every leaf is. -/
theorem isBlank_iff (q : Query) :
    q.isBlank = true ↔ ∀ leaf ∈ q.leaves, leaf.isBlank = true := by
  rw [isBlank, Segment.areBlank_eq, List.all_eq_true, leaves]

end Query

end SqlFragments
