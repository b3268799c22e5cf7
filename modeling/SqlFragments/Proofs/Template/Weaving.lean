import SqlFragments.Proofs.Compiler.Decoding
import SqlFragments.Proofs.Template.Grammar
import SqlFragments.Template.Expand
import SqlFragments.Template.Weave

/-!
# One query from three front-ends

A query with arguments can be made in three ways: by expanding a template, by weaving
chunks of code with arguments, and by appending code and arguments to a builder one
after the other.  The chunks and the arguments of a template are read off its pieces,
and then the expanded template is the woven query.  The query that is built by hand
has an empty literal for every empty chunk besides, which no command shows.

Main results:

- `isWoven_of_assign`: one append for each piece is what weaving chunks and arguments gives.
- `Builder.build_foldl_perform`: a builder builds the query of its appends.
- `Leaf.cut_weaveSegments`: woven and appended segments differ by empty literals only.
- `front_ends_agree`: the three ways make queries that compile alike.
-/

namespace SqlFragments

/-- Whether a segment is code of its own. -/
def Segment.isLiteral : Segment → Bool
  | .literal _ => true
  | _ => false

namespace Template

/-! ## Chunks and arguments of a template -/

/-- Whether a piece is a hole. -/
def Part.isHole (part : Part) : Bool := !part.isCode

/-- The code of a piece; a hole has none. -/
def Part.codeText : Part → List Char
  | .code text => text
  | _ => []

/-- The code around the holes of a template, one chunk more than there are holes.  A chunk
is empty where two holes touch or where the template starts or ends with a hole. -/
def chunks (parts : List Part) : List (List Char) :=
  (parts.splitOnP Part.isHole).map fun run => run.flatMap Part.codeText

/-- What stands in for each hole: its expression, or of the arguments the one whose number
is the number of such holes before. -/
def holeArguments {ε : Type} (read : List Char → Option ε) (parts : List Part) (args : List ε) :
    List (Option ε) :=
  let holes := parts.filter Part.isHole
  holes.mapIdx fun i hole =>
    match hole with
    | .inline expression => read expression
    | _ => args[(holes.take i).countP Part.isPositional]?

/-- An append with its expression computed. -/
def Append.map {ε δ : Type} (eval : ε → δ) : Append ε → Append δ
  | .code text => .code text
  | .arg e => .arg (eval e)

/-- A template without parts is one empty chunk. -/
theorem chunks_nil : chunks [] = [[]] := by
  simp [chunks]

/-- A hole starts a new chunk. -/
theorem chunks_hole {part : Part} (h : part.isHole = true) (parts : List Part) :
    chunks (part :: parts) = [] :: chunks parts := by
  simp [chunks, List.splitOnP_cons_eq_if_modifyHead, h]

/-- Code in front belongs to the first chunk. -/
theorem chunks_code (text : List Char) (parts : List Part) :
    chunks (.code text :: parts) = (chunks parts).modifyHead (text ++ ·) := by
  have hcode : Part.isHole (.code text) = false := rfl
  obtain ⟨run, runs, hruns⟩ := List.exists_cons_of_ne_nil (List.splitOnP_ne_nil Part.isHole parts)
  simp [chunks, List.splitOnP_cons_eq_if_modifyHead, hcode, hruns, Part.codeText]

/-- Before anything but code stands an empty chunk. -/
theorem exists_chunks {parts : List Part} (h : ∀ next ∈ parts.head?, next.isCode = false) :
    ∃ others, chunks parts = [] :: others := by
  cases parts with
  | nil => exact ⟨[], chunks_nil⟩
  | cons part parts =>
    have hhole : part.isHole = true := by simpa [Part.isHole] using h part rfl
    exact ⟨chunks parts, chunks_hole hhole parts⟩

section

variable {ε : Type} (read : List Char → Option ε)

/-- A hole with an expression takes none of the arguments. -/
theorem holeArguments_inline (expression : List Char) (parts : List Part) (args : List ε) :
    holeArguments read (.inline expression :: parts) args =
      read expression :: holeArguments read parts args := by
  simp [holeArguments, Part.isHole, Part.isCode, List.mapIdx_cons, Part.isPositional]

/-- A hole without an expression takes the first argument. -/
theorem holeArguments_positional (parts : List Part) (arg : ε) (args : List ε) :
    holeArguments read (.positional :: parts) (arg :: args) =
      some arg :: holeArguments read parts args := by
  simp [holeArguments, Part.isHole, Part.isCode, List.mapIdx_cons, List.countP_cons,
    Part.isPositional]

end

/-! ## Woven segments -/

@[simp]
theorem chunkSegments_empty : chunkSegments "" = [] := rfl

/-- The first chunk gives the first segments. -/
theorem weaveSegments_cons (chunk : String) (others : List String) (args : List Argument) :
    weaveSegments (chunk :: others) args =
      chunkSegments chunk ++ weaveSegments ("" :: others) args := by
  cases args <;> simp [weaveSegments]

/-- Code that is not empty is one segment. -/
theorem chunkSegments_ofList {text : List Char} (h : text ≠ []) :
    chunkSegments (String.ofList text) = [.literal (String.ofList text)] := by
  simp [chunkSegments, h]

/-- Some arguments stand in for the holes, one for each, and the chunks woven with them are
the segments of the appends. -/
def IsWoven {ε : Type} (read : List Char → Option ε) (eval : ε → Argument) (parts : List Part)
    (args : List ε) (appends : List (Append ε)) : Prop :=
  ∃ taken : List ε, holeArguments read parts args = taken.map some ∧
    (chunks parts).length = taken.length + 1 ∧
    weaveSegments ((chunks parts).map String.ofList) (taken.map eval) =
      (appends.map (Append.map eval)).map Append.segment

section

variable {ε : Type} {read : List Char → Option ε} {eval : ε → Argument} {parts : List Part}

/-- Code in front fills the empty chunk before the next hole. -/
theorem IsWoven.code {args : List ε} {appends : List (Append ε)} {text : List Char}
    (htext : text ≠ []) (hcode : ∀ next ∈ parts.head?, next.isCode = false)
    (h : IsWoven read eval parts args appends) :
    IsWoven read eval (.code text :: parts) args (.code text :: appends) := by
  obtain ⟨taken, htaken, hlength, hsegments⟩ := h
  obtain ⟨rest, hrest⟩ := exists_chunks hcode
  have hchunks : chunks (.code text :: parts) = text :: rest := by
    rw [chunks_code, hrest, List.modifyHead_cons, List.append_nil]
  rw [hrest] at hlength hsegments
  refine ⟨taken, htaken, by rw [hchunks]; exact hlength, ?_⟩
  rw [hchunks, List.map_cons, weaveSegments_cons, chunkSegments_ofList htext]
  exact congrArg (_ :: ·) hsegments

/-- A hole in front gives an empty chunk and its argument. -/
theorem IsWoven.hole {args left : List ε} {appends : List (Append ε)} {part : Part} {e : ε}
    (hhole : part.isHole = true)
    (hargument : holeArguments read (part :: parts) args = some e :: holeArguments read parts left)
    (h : IsWoven read eval parts left appends) :
    IsWoven read eval (part :: parts) args (.arg e :: appends) := by
  obtain ⟨taken, htaken, hlength, hsegments⟩ := h
  have hchunks := chunks_hole hhole parts
  refine ⟨e :: taken, ?_, ?_, ?_⟩
  · rw [hargument, htaken, List.map_cons]
  · rw [hchunks, List.length_cons, hlength, List.length_cons]
  · rw [hchunks]
    exact congrArg (_ :: ·) hsegments

/-- The appends of a normal template are the segments that its chunks and the arguments of
its holes are woven to. -/
theorem isWoven_of_assign {args : List ε} {appends : List (Append ε)} (hnormal : IsNormal parts)
    (h : assign read parts args = .ok appends) : IsWoven read eval parts args appends := by
  fun_induction assign read parts args generalizing appends with
  | case1 args =>
    obtain rfl := Except.ok.inj h
    refine ⟨[], rfl, ?_, ?_⟩
    · rw [chunks_nil]
      rfl
    · rw [chunks_nil]
      rfl
  | case2 text parts args ih =>
    obtain ⟨others, hothers, rfl⟩ := map_eq_ok h
    obtain ⟨htext, hparts, hnext⟩ := isNormal_cons_iff.mp hnormal
    have hcode : ∀ next ∈ parts.head?, next.isCode = false := by
      intro next hmem
      simpa [Part.isCode] using hnext next hmem
    exact (ih hparts hothers).code htext hcode
  | case3 expression parts args e hread ih =>
    obtain ⟨others, hothers, rfl⟩ := map_eq_ok h
    have hargument := holeArguments_inline read expression parts args
    rw [hread] at hargument
    exact (ih hnormal.tail hothers).hole rfl hargument
  | case4 => simp at h
  | case5 parts arg args ih =>
    obtain ⟨others, hothers, rfl⟩ := map_eq_ok h
    exact (ih hnormal.tail hothers).hole rfl (holeArguments_positional read parts arg args)
  | case6 => simp at h

end

/-- With one chunk more than arguments, the first chunk stands in front and every other
chunk stands behind one argument. -/
theorem weaveSegments_zip (first : String) {others : List String} {args : List Argument}
    (h : others.length = args.length) :
    weaveSegments (first :: others) args =
      chunkSegments first ++
        (args.zip others).flatMap fun (arg, chunk) => arg.segment :: chunkSegments chunk := by
  induction args generalizing first others with
  | nil =>
    obtain rfl := List.eq_nil_of_length_eq_zero h
    rfl
  | cons arg args ih =>
    cases others with
    | nil => simp at h
    | cons chunk others =>
      rw [weaveSegments, ih chunk (Nat.succ.inj h)]
      simp

/-- No argument becomes a literal, so the arguments are what is no literal among the woven
segments. -/
theorem filter_weaveSegments (first : String) {others : List String} {args : List Argument}
    (h : others.length = args.length) :
    (weaveSegments (first :: others) args).filter (fun segment => !segment.isLiteral) =
      args.map Argument.segment := by
  have hchunk : ∀ chunk, (chunkSegments chunk).filter (fun segment => !segment.isLiteral) = [] := by
    intro chunk
    unfold chunkSegments
    split <;> rfl
  have harg : ∀ arg : Argument, arg.segment.isLiteral = false := by
    intro arg
    cases arg <;> rfl
  induction args generalizing first others with
  | nil =>
    obtain rfl := List.eq_nil_of_length_eq_zero h
    simp [weaveSegments, hchunk]
  | cons arg args ih =>
    cases others with
    | nil => simp at h
    | cons chunk others =>
      rw [weaveSegments, List.filter_append, hchunk, List.nil_append, List.filter_cons, harg,
        ih chunk (Nat.succ.inj h)]
      rfl

end Template

/-! ## Calls on a builder -/

namespace Builder

/-- A builder after a first chunk of code and then an argument and a chunk at a time. -/
def alternate (first : String) (others : List (Argument × String)) : Builder :=
  others.foldl (fun b (arg, chunk) => (b.arg arg).raw (.code chunk)) (new.raw (.code first))

/-- A builder after one append. -/
def perform (b : Builder) : Template.Append Argument → Builder
  | .code text => b.raw (.code (String.ofList text))
  | .arg argument => b.arg argument

/-- Without a separator a run of appends adds the segments and nothing else. -/
theorem segments_foldl_push_of_join {b : Builder} (h : b.join = none) (segments : List Segment) :
    (segments.foldl push b).segments = b.segments ++ segments := by
  simp [segments_foldl_push (.inl h), separation, h]

/-- Arguments and chunks are appended in turn. -/
theorem segments_foldl_alternate {b : Builder} (h : b.join = none)
    (others : List (Argument × String)) :
    (others.foldl (fun b (arg, chunk) => (b.arg arg).raw (.code chunk)) b).segments =
      b.segments ++ others.flatMap fun (arg, chunk) => [arg.segment, .literal chunk] := by
  rw [← segments_foldl_push_of_join h, List.foldl_flatMap]
  rfl

/-- A woven builder has its first chunk and then arguments and chunks in turn. -/
theorem segments_alternate (first : String) (others : List (Argument × String)) :
    (alternate first others).segments =
      .literal first :: others.flatMap fun (arg, chunk) => [arg.segment, .literal chunk] := by
  rw [alternate, segments_foldl_alternate rfl]
  rfl

/-- Performed appends are appended in order. -/
theorem segments_foldl_perform {b : Builder} (h : b.join = none)
    (appends : List (Template.Append Argument)) :
    (appends.foldl perform b).segments = b.segments ++ appends.map Template.Append.segment := by
  have hperform : perform = fun b append => b.push (Template.Append.segment append) := by
    funext b append
    cases append <;> rfl
  rw [← segments_foldl_push_of_join h, List.foldl_map, hperform]

/-- The query of appends is what a new builder has built after them. -/
theorem build_foldl_perform (appends : List (Template.Append Argument)) :
    (appends.foldl perform new).build = Template.build appends := by
  rw [build, segments_foldl_perform rfl]
  rfl

end Builder

namespace Leaf

/-- An empty chunk may be a literal or nothing at all. -/
theorem cut_chunkSegments (chunk : String) {leaves others : List Leaf}
    (h : cut leaves = cut others) :
    cut (Segment.leavesOf (Template.chunkSegments chunk) ++ leaves) =
      cut (.literal chunk :: others) := by
  unfold Template.chunkSegments
  split
  · rename_i hempty
    have hchunk : chunk = "" := by simpa using hempty
    simp [Segment.leavesOf, cut, Cut.prepend, hchunk, h]
  · simp [Segment.leavesOf, Segment.leaves, cut, h]

/-- Woven segments and segments appended by hand are cut alike. -/
theorem cut_weaveSegments (first : String) (pairs : List (Argument × String)) :
    cut (Segment.leavesOf (Template.chunkSegments first ++
        pairs.flatMap fun (arg, chunk) => arg.segment :: Template.chunkSegments chunk)) =
      cut (Segment.leavesOf (.literal first ::
        pairs.flatMap fun (arg, chunk) => [arg.segment, .literal chunk])) := by
  induction pairs generalizing first with
  | nil =>
    rw [List.flatMap_nil, List.flatMap_nil, Segment.leavesOf_append]
    exact cut_chunkSegments first rfl
  | cons pair pairs ih =>
    obtain ⟨arg, chunk⟩ := pair
    have hrest := cut_append_congr (ih chunk) arg.segment.leaves
    rw [List.flatMap_cons, List.flatMap_cons, Segment.leavesOf_append]
    exact cut_chunkSegments first hrest

end Leaf

/-- Trees whose leaves are cut alike compile alike. -/
theorem Compiler.compile_eq_of_cut_eq (c : Compiler) {q r : Query}
    (h : Leaf.cut q.leaves = Leaf.cut r.leaves) : c.compile q = c.compile r := by
  have halike := (Leaf.alike_iff_cut_eq q.leaves r.leaves).mpr h
  rw [compile_query, compile_query, Leaf.textFrom_of_alike halike, ← Leaf.names_cut,
    ← Leaf.names_cut, h]

namespace Template

/-- A template that expands, chunks that are woven with arguments, and calls written by
hand make one query.  The expanded template is, segment for segment, the query woven from
the code around its holes and from what stands in for its holes in order, every trailing
argument being taken; and it is what the appends build one after the other.  A query that
is woven from chunks and one argument fewer compiles under every compiler as the one that
is appended by hand, and its segments that are no literals are the arguments in order.
Any other number of arguments is refused with both numbers. -/
theorem front_ends_agree :
    (∀ (ε : Type) (read : List Char → Option ε) (eval : ε → Argument) (template : String)
      (args : List ε) (appends : List (Append ε)), expand read template args = .ok appends →
      ∃ (parts : List Part) (taken : List ε), parse template = .ok parts ∧
        holeArguments read parts args = taken.map some ∧
        parts.countP Part.isPositional = args.length ∧
        weave ((chunks parts).map String.ofList) (taken.map eval) =
          .ok (build (appends.map (Append.map eval)))) ∧
    (∀ appends : List (Append Argument),
      build appends = (appends.foldl Builder.perform Builder.new).build) ∧
    (∀ (first : String) (others : List String) (args : List Argument),
      others.length = args.length →
      ∃ q, weave (first :: others) args = .ok q ∧
        (∀ c : Compiler, c.compile q = c.compile (Builder.alternate first (args.zip others))) ∧
        q.segments.filter (fun segment => !segment.isLiteral) = args.map Argument.segment) ∧
    ∀ (chunks : List String) (args : List Argument), chunks.length ≠ args.length + 1 →
      weave chunks args = .error (.templateArity chunks.length args.length) := by
  refine ⟨?_, fun appends => (Builder.build_foldl_perform appends).symm, ?_, ?_⟩
  · intro ε read eval template args appends h
    unfold expand at h
    split at h
    · simp at h
    · rename_i parts hparse
      simp only at h
      split at h
      · rename_i hholes
        have hnormal := ((parse_eq_ok_iff template parts).mp hparse).1
        have hwoven : IsWoven read eval parts args appends := isWoven_of_assign hnormal h
        obtain ⟨taken, htaken, hlength, hsegments⟩ := hwoven
        refine ⟨parts, taken, hparse, htaken, hholes, weave_eq_ok_iff.mpr ⟨?_, ?_⟩⟩
        · simp [hlength]
        · rw [hsegments]
          rfl
      · simp at h
  · intro first others args h
    have hlength : (first :: others).length = args.length + 1 := congrArg (· + 1) h
    refine ⟨_, weave_eq_ok_iff.mpr ⟨hlength, rfl⟩, ?_, filter_weaveSegments first h⟩
    intro c
    have hbuilder : c.compile (Builder.alternate first (args.zip others)) =
        c.compile (Builder.alternate first (args.zip others)).build := rfl
    rw [hbuilder]
    apply c.compile_eq_of_cut_eq
    rw [Query.leaves, Query.leaves, weaveSegments_zip first h, Builder.build,
      Builder.segments_alternate]
    exact Leaf.cut_weaveSegments first (args.zip others)
  · intro chunks args h
    rw [weave, if_neg h]

/-- Two holes that touch, of which one holds an expression, at the start of a template. -/
theorem front_ends_agree_touching :
    expand (fun text => some (Argument.query (.raw (String.ofList text)))) "{}{a} b"
        [.value .null] =
      .ok [.arg (.value .null), .arg (.query (.raw "a")), .code " b".toList] ∧
    ∃ (parts : List Part) (taken : List Argument), parse "{}{a} b" = .ok parts ∧
      holeArguments (fun text => some (Argument.query (.raw (String.ofList text)))) parts
        [.value .null] = taken.map some ∧
      parts.countP Part.isPositional = 1 ∧
      weave ((chunks parts).map String.ofList) (taken.map id) =
        .ok (build ([.arg (.value .null), .arg (.query (.raw "a")), .code " b".toList].map
          (Append.map id))) := by
  have h : expand (fun text => some (Argument.query (.raw (String.ofList text)))) "{}{a} b"
      [.value .null] =
      .ok [.arg (.value .null), .arg (.query (.raw "a")), .code " b".toList] := by
    have hparse : parse "{}{a} b" = .ok [.positional, .inline ['a'], .code [' ', 'b']] := by
      decide +kernel
    rw [expand, hparse]
    rfl
  exact ⟨h, front_ends_agree.1 _ _ id _ _ _ h⟩

end Template

end SqlFragments
