import SqlFragments.Text.Blank

/-!
# Templates as texts with holes

A template is a text with holes between braces.  Outside holes a doubled brace
stands for one brace.  A hole goes on to its closing brace, braces inside it being
balanced; with nothing but blanks inside it takes the next argument, and otherwise
it holds an expression.

Main results:

- `readHole_balanced`: a hole with balanced braces is read up to its closing brace.
-/

namespace SqlFragments.Template

/-- A piece of a template. -/
inductive Part where
  /-- Code outside holes, with single braces. -/
  | code (text : List Char)
  /-- A hole that holds an expression. -/
  | inline (expression : List Char)
  /-- A hole that takes the next argument. -/
  | positional
deriving DecidableEq, Repr

/-- Why a text is no template. -/
inductive Part.Fault where
  | unmatchedClose
  | unclosedHole
deriving DecidableEq, Repr

/-- The wording of a fault in a template. -/
def Part.Fault.message : Part.Fault → String
  | .unmatchedClose => "unmatched `\x7d` in template; use `\x7d\x7d` for a literal brace"
  | .unclosedHole => "unclosed `\x7b` in template; use `\x7b\x7b` for a literal brace"

/-! ## Holes -/

/-- Reads up to the brace that closes a hole, with `depth` braces opened inside it:
the text before that brace and the text after it. -/
def readHole : Nat → List Char → Option (List Char × List Char)
  | _, [] => none
  | 0, '}' :: after => some ([], after)
  | depth, c :: rest =>
    let inner := if c = '{' then depth + 1 else if c = '}' then depth - 1 else depth
    (readHole inner rest).map fun (hole, after) => (c :: hole, after)

/-- Whether braces are balanced when `depth` of them are open before the text. -/
def balancedFrom : Nat → List Char → Bool
  | depth, [] => depth == 0
  | 0, '}' :: _ => false
  | depth, c :: rest =>
    balancedFrom (if c = '{' then depth + 1 else if c = '}' then depth - 1 else depth) rest

/-- Reading a hole takes at least its closing brace. -/
theorem length_readHole_lt {depth : Nat} {text hole after : List Char}
    (h : readHole depth text = some (hole, after)) : after.length < text.length := by
  fun_induction readHole depth text generalizing hole with
  | case1 => simp at h
  | case2 rest =>
    obtain ⟨_, rfl⟩ := Prod.mk.inj (Option.some.inj h)
    simp
  | case3 depth c rest _ _ =>
    rename_i ih
    obtain ⟨⟨_, remaining⟩, hinner, heq⟩ := Option.map_eq_some_iff.mp h
    obtain ⟨_, rfl⟩ := Prod.mk.inj heq
    have := ih hinner
    simp only [List.length_cons]
    omega

/-- A hole with balanced braces is read up to its closing brace. -/
theorem readHole_balanced {depth : Nat} {hole : List Char} (h : balancedFrom depth hole = true)
    (after : List Char) : readHole depth (hole ++ '}' :: after) = some (hole, after) := by
  fun_induction balancedFrom depth hole with
  | case1 depth =>
    have hdepth : depth = 0 := by simpa using h
    subst hdepth
    rfl
  | case2 => simp at h
  | case3 depth c rest hne ih =>
    rw [List.cons_append, readHole]
    · simp only [ih h, Option.map_some]
    · intro hdepth hc
      exact hne hdepth hc

/-- The piece that the text of a hole stands for. -/
def Part.ofHole (hole : List Char) : Part :=
  let expression := Text.trimBlanks hole
  if expression.isEmpty then .positional else .inline expression

/-! ## Templates -/

/-- Puts a character of code in front of the pieces after it. -/
def consCode (c : Char) : List Part → List Part
  | .code text :: parts => .code (c :: text) :: parts
  | parts => .code [c] :: parts

/-- The pieces of a template, or its leftmost fault. -/
def readParts (text : List Char) : Except Part.Fault (List Part) :=
  match text with
  | [] => .ok []
  | '{' :: '{' :: rest => (readParts rest).map (consCode '{')
  | '}' :: '}' :: rest => (readParts rest).map (consCode '}')
  | '}' :: _ => .error .unmatchedClose
  | '{' :: rest =>
    match _found : readHole 0 rest with
    | none => .error .unclosedHole
    | some (hole, after) => (readParts after).map (Part.ofHole hole :: ·)
  | c :: rest => (readParts rest).map (consCode c)
termination_by text.length
decreasing_by
  all_goals simp only [List.length_cons]
  case _ => omega
  case _ => omega
  case _ => have := length_readHole_lt ‹_›; omega
  case _ => omega

/-- A mapped computation succeeds when the computation does. -/
theorem map_eq_ok {ε α β : Type} {f : α → β} {x : Except ε α} {b : β} (h : x.map f = .ok b) :
    ∃ a, x = .ok a ∧ f a = b := by
  cases x with
  | error e => simp [Except.map] at h
  | ok a => exact ⟨a, rfl, Except.ok.inj h⟩

/-- The pieces of a template. -/
def parse (template : String) : Except Part.Fault (List Part) := readParts template.toList

end SqlFragments.Template
