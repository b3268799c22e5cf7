import SqlFragments.Builder

/-!
# Weaving chunks and arguments

A template given as chunks of code has one argument between every two neighbouring
chunks.  Empty chunks leave no segment, and every argument is used once, in order.

Main results:

- `weave_eq_ok_iff`: chunks and arguments are woven exactly when there is one chunk
  more than there are arguments.
-/

namespace SqlFragments.Template

/-- The segments of a chunk: one literal, or none if the chunk is empty. -/
def chunkSegments (chunk : String) : List Segment :=
  if chunk.isEmpty then [] else [.literal chunk]

/-- The segments of chunks with one argument after each chunk while arguments last. -/
def weaveSegments : List String → List Argument → List Segment
  | [], _ => []
  | chunk :: chunks, [] => chunkSegments chunk ++ weaveSegments chunks []
  | chunk :: chunks, arg :: args =>
    chunkSegments chunk ++ arg.segment :: weaveSegments chunks args

/-- The query of chunks with the arguments between them. -/
def weave (chunks : List String) (args : List Argument) : Except Error Query :=
  if chunks.length = args.length + 1 then .ok ⟨weaveSegments chunks args⟩
  else .error (.templateArity chunks.length args.length)

theorem weave_eq_ok_iff {chunks : List String} {args : List Argument} {q : Query} :
    weave chunks args = .ok q ↔
      chunks.length = args.length + 1 ∧ q = ⟨weaveSegments chunks args⟩ := by
  unfold weave
  split <;> simp_all [eq_comm]

end SqlFragments.Template
