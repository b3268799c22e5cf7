import SqlFragments.Proofs.Clause.ClauseOrder

/-!
# Blank members

Whether an item is blank is decided on its tree, without compiling it.  The decision is
right: a tree is blank exactly when its command is empty, if no placeholder is written as
nothing.  So a condition keeps exactly the members that show, and joins their texts by the
connectives that were given with them; no connective stands without a neighbour on each
side, and the word of a filter stands only before a member.

Main results:

- `Leaf.textFrom_eq_empty_iff`: leaves have no text exactly when all of them are blank.
- `Compiler.command_eq_empty_iff`: a query is blank exactly when its command is empty.
- `Condition.leaves_ofCalls`: the leaves of a condition are those of its members, joined.
- `Compiler.blank_members_leave_no_trace`: a condition is made by the calls that show, and
  its command is their texts with the connectives between.
-/

namespace SqlFragments

/-! ## Blank leaves -/

/-- Leaves have no text exactly when all of them are blank, if every token has text. -/
theorem Leaf.textFrom_eq_empty_iff {p : Placeholder} (h : ∀ n, p.token n ≠ "") (start : Nat)
    (leaves : List Leaf) :
    textFrom p start leaves = "" ↔ ∀ leaf ∈ leaves, leaf.isBlank = true := by
  induction leaves generalizing start with
  | nil => simp
  | cons leaf rest ih =>
    rw [textFrom_cons, String.append_eq_empty_iff, ih, List.forall_mem_cons]
    apply and_congr_left
    intro _
    cases leaf with
    | literal code => simp [text, isBlank]
    | value v => simp [text, isBlank, h start]

namespace Compiler

section

variable {c : Compiler}

/-- Without normalization and post-processing a command is the text of the leaves. -/
theorem command_eq_textFrom (hblanks : c.normalizesBlanks = false) (hpost : c.postProcess = none)
    (q : Query) : (c.compile q).command = Leaf.textFrom c.placeholder 0 q.leaves := by
  simp [compile_query, finish, hblanks, hpost]

/-- A query is blank exactly when its command is empty. -/
theorem command_eq_empty_iff (hblanks : c.normalizesBlanks = false) (hpost : c.postProcess = none)
    (htoken : ∀ n, c.placeholder.token n ≠ "") (q : Query) :
    (c.compile q).command = "" ↔ q.isBlank = true := by
  rw [command_eq_textFrom hblanks hpost, Leaf.textFrom_eq_empty_iff htoken, q.isBlank_iff]

/-- The command of an item that is appended alone. -/
def commandOf (c : Compiler) (item : Item) : String := (c.compile (Builder.new.raw item)).command

/-- An item is blank exactly when its command is empty. -/
theorem commandOf_eq_empty_iff (hblanks : c.normalizesBlanks = false)
    (hpost : c.postProcess = none) (htoken : ∀ n, c.placeholder.token n ≠ "") (item : Item) :
    c.commandOf item = "" ↔ item.isBlank = true := by
  have hbuilder : c.commandOf item = (c.compile (Query.mk [item.segment])).command := rfl
  have hleaves : (Query.mk [item.segment]).leaves = item.segment.leaves := by
    simp [Query.leaves, Segment.leavesOf]
  rw [hbuilder, command_eq_empty_iff hblanks hpost htoken, Query.isBlank_iff, hleaves,
    item.isBlank_iff]

end

end Compiler

/-! ## Calls on a condition -/

namespace Condition

/-- What is given to a condition: an item, or another condition. -/
inductive Given where
  | item (added : Item)
  | condition (inner : Condition)

namespace Given

/-- What is given, as an item. -/
def toItem : Given → Item
  | .item added => added
  | .condition inner => SqlFragments.toItem inner

/-- The leaves of what is given.  Only a condition of several members is put between
parentheses. -/
def leaves : Given → List Leaf
  | .item added => added.segment.leaves
  | .condition inner =>
    if 1 < inner.length then .literal "(" :: (toQuery inner).leaves ++ [.literal ")"]
    else (toQuery inner).leaves

/-- What is given keeps its leaves when it is taken as an item. -/
theorem leaves_toItem (given : Given) : given.toItem.segment.leaves = given.leaves := by
  cases given with
  | item added => rfl
  | condition inner =>
    have hguarded : (SqlFragments.toItem inner).segment.leaves = inner.guarded.leaves := rfl
    rw [toItem, hguarded, leaves, guarded]
    split
    · rw [Group.leaves_toQuery]
      rfl
    · rfl

end Given

/-- A condition after one call. -/
def call (c : Condition) : Connective → Item → Condition
  | .and, item => c.and item
  | .or, item => c.or item

/-- The condition that calls make, one after the other. -/
def ofCalls (calls : List (Connective × Given)) : Condition :=
  calls.foldl (fun c (connective, given) => c.call connective given.toItem) empty

/-- Conditions built by calls are those built from the members they become. -/
theorem ofCalls_eq_ofMembers (calls : List (Connective × Given)) :
    ofCalls calls =
      ofMembers (calls.map fun (connective, given) => (connective, given.toItem)) := by
  have hcall : ∀ (c : Condition) (connective : Connective) (item : Item),
      c.call connective item = c.add connective item := by
    intro c connective item
    cases connective <;> rfl
  rw [ofCalls, ofMembers, List.foldl_map]
  simp only [hcall]

/-- The members of the condition are what is given and not blank. -/
theorem members_ofCalls (calls : List (Connective × Given)) :
    (ofCalls calls).members = (calls.filter fun call => !call.2.toItem.isBlank).map
      fun (connective, given) => (connective, given.toItem) := by
  rw [ofCalls_eq_ofMembers, members_ofMembers, List.filter_map]
  rfl

end Condition

/-- A filter after one call. -/
def Filter.call (f : Filter) : Connective → Item → Filter
  | .and, item => f.and item
  | .or, item => f.or item

/-- The filter that calls make, one after the other. -/
def Filter.ofCalls (calls : List (Connective × Condition.Given)) : Filter :=
  calls.foldl (fun f (connective, given) => f.call connective given.toItem) empty

/-- A filter is the condition that the same calls make. -/
theorem Filter.ofCalls_eq (calls : List (Connective × Condition.Given)) :
    Filter.ofCalls calls = ⟨Condition.ofCalls calls⟩ := by
  apply List.foldl_hom Filter.mk
  rintro c ⟨connective, given⟩
  cases connective <;> rfl

/-! ## The text of a condition -/

namespace Condition

/-- Texts with connectives between them; the first connective is not written. -/
def joinedText : List (Connective × String) → String
  | [] => ""
  | (_, first) :: others =>
    first ++ String.join (others.map fun (connective, text) => connective.code ++ text)

/-- The leaves of a condition are those of what is given and not blank, joined. -/
theorem leaves_ofCalls (calls : List (Connective × Given)) :
    (toQuery (ofCalls calls)).leaves =
      joinedLeaves ((calls.filter fun call => !call.2.toItem.isBlank).map
        fun (connective, given) => (connective, given.leaves)) := by
  rw [toQuery_eq, bare_eq, Query.leaves, leavesOf_writeParts, parts, members_ofCalls, List.map_map,
    List.map_map]
  congr 1
  apply List.map_congr_left
  rintro ⟨connective, given⟩ _
  exact congrArg (Prod.mk connective) given.leaves_toItem

/-- Joined leaves are written as the texts of the parts, joined; the connectives bring no
values. -/
theorem textFrom_joinedLeaves (p : Placeholder) (start : Nat)
    (parts : List (Connective × List Leaf)) :
    Leaf.textFrom p start (joinedLeaves parts) =
      joinedText ((parts.map Prod.fst).zip (Leaf.textsFrom p start (parts.map Prod.snd))) := by
  have hothers : ∀ (others : List (Connective × List Leaf)) (start : Nat),
      Leaf.textFrom p start (others.flatMap fun other => .literal other.1.code :: other.2) =
        String.join (((others.map Prod.fst).zip (Leaf.textsFrom p start
          (others.map Prod.snd))).map fun other => other.1.code ++ other.2) := by
    intro others
    induction others with
    | nil => intro start; rfl
    | cons other others ih =>
      intro start
      rw [List.flatMap_cons, List.cons_append, Leaf.textFrom_cons, Leaf.count_literal,
        Nat.add_zero, Leaf.textFrom_append, ih]
      simp [Leaf.textsFrom, Leaf.text, String.append_assoc]
  cases parts with
  | nil => rfl
  | cons part others =>
    simp [joinedLeaves, joinedText, Leaf.textsFrom, Leaf.textFrom_append, hothers]

/-- A condition has members exactly when something is given that is not blank. -/
theorem length_ofCalls (calls : List (Connective × Given)) :
    (ofCalls calls).length = (calls.filter fun call => !call.2.toItem.isBlank).length := by
  rw [length, members_ofCalls, List.length_map]

/-- Calls with blank items may be left out. -/
theorem ofCalls_filter (calls : List (Connective × Given)) :
    ofCalls (calls.filter fun call => !call.2.toItem.isBlank) = ofCalls calls := by
  have hmembers : (ofCalls (calls.filter fun call => !call.2.toItem.isBlank)).members =
      (ofCalls calls).members := by
    rw [members_ofCalls, members_ofCalls, List.filter_filter]
    simp
  exact congrArg Condition.mk hmembers

/-- A condition whose members all show is blank only without members. -/
theorem isBlank_bare {c : Condition} (h : ∀ member ∈ c.members, member.2.isBlank = false) :
    c.bare.isBlank = c.isEmpty := by
  rcases c with ⟨members⟩
  cases members with
  | nil => rfl
  | cons member others =>
    have hfirst : member.2.segment.isBlank = false := by
      rw [← Item.isBlank_eq_segment]
      exact h member (by simp)
    simp [bare, isEmpty, Query.isBlank, Segment.areBlank, hfirst]

/-- A condition built by calls is blank exactly when it has no member. -/
theorem isBlank_ofCalls (calls : List (Connective × Given)) :
    (toQuery (ofCalls calls)).isBlank = (ofCalls calls).isEmpty := by
  apply isBlank_bare
  intro member hmember
  rw [members_ofCalls] at hmember
  rcases List.mem_map.mp hmember with ⟨call, hcall, rfl⟩
  simpa using (List.mem_filter.mp hcall).2

end Condition

/-! ## Commands -/

namespace Compiler

section

variable {c : Compiler} (calls : List (Connective × Condition.Given))

/-- What shows is what is not blank. -/
theorem filter_commandOf (hblanks : c.normalizesBlanks = false) (hpost : c.postProcess = none)
    (htoken : ∀ n, c.placeholder.token n ≠ "") :
    (calls.filter fun call => c.commandOf call.2.toItem != "") =
      calls.filter fun call => !call.2.toItem.isBlank := by
  apply List.filter_congr
  intro call _
  rw [Bool.eq_iff_iff, bne_iff_ne, ne_eq, commandOf_eq_empty_iff hblanks hpost htoken,
    Bool.not_eq_true, Bool.not_eq_true']

/-- The command of a condition is the texts of what shows, joined. -/
theorem command_ofCalls (hblanks : c.normalizesBlanks = false) (hpost : c.postProcess = none) :
    let shown := calls.filter fun call => !call.2.toItem.isBlank
    (c.compile (Condition.ofCalls calls)).command =
      Condition.joinedText ((shown.map Prod.fst).zip
        (Leaf.textsFrom c.placeholder 0 (shown.map fun call => call.2.leaves))) := by
  intro shown
  have hquery : (c.compile (Condition.ofCalls calls)).command =
      (c.compile (toQuery (Condition.ofCalls calls))).command := rfl
  rw [hquery, command_eq_textFrom hblanks hpost, Condition.leaves_ofCalls,
    Condition.textFrom_joinedLeaves]
  simp only [List.map_map]
  rfl

/-- The word of a filter stands before the command of the condition that the same calls make,
if that has members, and nowhere else. -/
theorem command_filter (hblanks : c.normalizesBlanks = false) (hpost : c.postProcess = none) :
    (c.compile (Filter.ofCalls calls)).command =
      if (Filter.ofCalls calls).isEmpty then ""
      else "WHERE " ++ (c.compile (Condition.ofCalls calls)).command := by
  have hcondition : (c.compile (Condition.ofCalls calls)).command =
      (c.compile (toQuery (Condition.ofCalls calls))).command := rfl
  have hfilter : (c.compile (Filter.ofCalls calls)).command =
      (c.compile (toQuery (Filter.ofCalls calls))).command := rfl
  by_cases hempty : (Filter.ofCalls calls).isEmpty = true
  · rw [if_pos hempty, hfilter, Filter.toQuery_of_isEmpty hempty,
      command_eq_textFrom hblanks hpost]
    rfl
  · have hfull : (Filter.ofCalls calls).isEmpty = false := Bool.eq_false_iff.mpr hempty
    rw [if_neg hempty, hfilter, command_eq_textFrom hblanks hpost, Filter.leaves_toQuery hfull,
      Leaf.textFrom_cons, hcondition, command_eq_textFrom hblanks hpost, Filter.ofCalls_eq]
    rfl

/-- No text of what shows is empty. -/
theorem textsFrom_ne_empty (htoken : ∀ n, c.placeholder.token n ≠ "") {t : String}
    (ht : t ∈ Leaf.textsFrom c.placeholder 0
      ((calls.filter fun call => !call.2.toItem.isBlank).map fun call => call.2.leaves)) :
    t ≠ "" := by
  rcases Leaf.exists_of_mem_textsFrom ht with ⟨part, hpart, before, rfl⟩
  rcases List.mem_map.mp hpart with ⟨call, hcall, rfl⟩
  rw [ne_eq, Leaf.textFrom_eq_empty_iff htoken, ← Condition.Given.leaves_toItem,
    ← Item.isBlank_iff]
  simpa using (List.mem_filter.mp hcall).2

end

/-- Whether an item shows is decided rightly, so an item that does not leaves no trace.  The
calls that give such items may be left out; the length of a condition counts the others, and
it has none exactly when its command is empty, as the filter made by the same calls does.
Otherwise the command is the texts of what was given, none of them empty, with the given
connectives between neighbours, and with the word of a filter in front. -/
theorem blank_members_leave_no_trace (c : Compiler) (hblanks : c.normalizesBlanks = false)
    (hpost : c.postProcess = none) (htoken : ∀ n, c.placeholder.token n ≠ "") :
    (∀ q : Query, q.isBlank = true ↔ (c.compile q).command = "") ∧
    (∀ item : Item, item.isBlank = true ↔ c.commandOf item = "") ∧
    ∀ calls : List (Connective × Condition.Given),
      let shown := calls.filter fun call => c.commandOf call.2.toItem != ""
      let texts := Leaf.textsFrom c.placeholder 0 (shown.map fun call => call.2.leaves)
      let text := Condition.joinedText ((shown.map Prod.fst).zip texts)
      (Condition.ofCalls shown = Condition.ofCalls calls ∧
        Filter.ofCalls shown = Filter.ofCalls calls) ∧
      (Condition.ofCalls calls).length = shown.length ∧
      ((Condition.ofCalls calls).isEmpty = true ↔
        (c.compile (Condition.ofCalls calls)).command = "") ∧
      ((Filter.ofCalls calls).isEmpty = true ↔
        (c.compile (Filter.ofCalls calls)).command = "") ∧
      (c.compile (Condition.ofCalls calls)).command = text ∧
      ((Filter.ofCalls calls).isEmpty = false →
        (c.compile (Filter.ofCalls calls)).command = "WHERE " ++ text) ∧
      texts.length = shown.length ∧ ∀ t ∈ texts, t ≠ "" := by
  have hquery := command_eq_empty_iff hblanks hpost htoken
  have hitem := commandOf_eq_empty_iff hblanks hpost htoken
  refine ⟨fun q => (hquery q).symm, fun item => (hitem item).symm, ?_⟩
  intro calls shown texts text
  have hshown : shown = calls.filter fun call => !call.2.toItem.isBlank :=
    filter_commandOf calls hblanks hpost htoken
  have hsame : Condition.ofCalls shown = Condition.ofCalls calls := by
    rw [hshown, Condition.ofCalls_filter]
  have htext : (c.compile (Condition.ofCalls calls)).command = text := by
    rw [command_ofCalls calls hblanks hpost, ← hshown]
  have hfilter := command_filter calls hblanks hpost
  rw [htext] at hfilter
  refine ⟨⟨hsame, ?_⟩, ?_, ?_, ?_, htext, ?_, ?_, ?_⟩
  · rw [Filter.ofCalls_eq, Filter.ofCalls_eq, hsame]
  · rw [Condition.length_ofCalls, ← hshown]
  · rw [← Condition.isBlank_ofCalls, ← hquery]
    rfl
  · rw [hfilter]
    by_cases hempty : (Filter.ofCalls calls).isEmpty = true
    · simp [hempty]
    · simp [hempty]
  · intro hfull
    rw [hfilter, hfull, if_neg Bool.false_ne_true]
  · simp [texts]
  · intro t ht
    simp only [texts, hshown] at ht
    exact textsFrom_ne_empty calls htoken ht

/-- A value beside a condition of two members, with blank code, an empty condition and an
empty tree among the calls. -/
theorem blank_members_leave_no_trace_nested :
    let inner := Condition.ofCalls [(.and, .item (.code "a")), (.or, .item (.query .empty)),
      (.and, .item (.code "b"))]
    let calls : List (Connective × Condition.Given) := [(.or, .item (.code "")),
      (.and, .item (.query (.value .null))), (.and, .condition .empty), (.or, .condition inner)]
    (∀ n, numbered.placeholder.token n ≠ "") ∧
      (Condition.ofCalls calls).length = 2 ∧
      (numbered.compile (Condition.ofCalls calls)).command = "$1 OR (a AND b)" := by
  intro inner calls
  have htoken : ∀ n, numbered.placeholder.token n ≠ "" := by
    intro n hempty
    have hsigil := Placeholder.token_numbered (p := .dollar) rfl n
    rw [show Placeholder.token .dollar n = "" from hempty] at hsigil
    exact absurd hsigil (by simp)
  rcases (blank_members_leave_no_trace numbered rfl rfl htoken).2.2 calls with
    ⟨_, hlength, _, _, htext, _⟩
  exact ⟨htoken, hlength.trans (by decide +kernel), htext.trans (by decide +kernel)⟩

end Compiler

end SqlFragments
