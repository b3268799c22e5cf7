import SqlFragments.Proofs.Clause.Precedence
import SqlFragments.Proofs.Compiler.Flattening

/-!
# The meaning of nested conditions

A condition is assembled from atoms and from other conditions, at any depth.  Its value
is said by its structure: a nested condition without atoms is left out, every other one
is a unit, and the members are joined with AND before OR.  The command of the condition
is read as an expression with parentheses, and it has this value: no parentheses are
missing, and none are misplaced.

Main results:

- `Assembly.condition_of_atoms_nil`: without atoms, at any depth, the condition is empty.
- `areOperands_members`: the members of a condition are operands with their values.
- `command_has_structural_value`: the command has the value of the structure.
-/

namespace SqlFragments

open Logic

/-! ## Assembled conditions -/

/-- The calls that make a condition: each adds an atom or a condition that was assembled
before. -/
inductive Assembly where
  | empty
  | atom (before : Assembly) (connective : Connective) (word : String)
  | nested (before : Assembly) (connective : Connective) (inner : Assembly)

namespace Assembly

/-- The condition after the calls. -/
def condition : Assembly → Condition
  | empty => .empty
  | atom before connective word => before.condition.add connective (.code word)
  | nested before connective inner => before.condition.add connective (toItem inner.condition)

/-- The filter after the same calls; the conditions that they add are nested in it. -/
def filter : Assembly → Filter
  | empty => .empty
  | atom before .and word => before.filter.and (.code word)
  | atom before .or word => before.filter.or (.code word)
  | nested before .and inner => before.filter.and (toItem inner.condition)
  | nested before .or inner => before.filter.or (toItem inner.condition)

/-- The atoms at all depths, in order. -/
def atoms : Assembly → List String
  | empty => []
  | atom before _ word => before.atoms ++ [word]
  | nested before _ inner => before.atoms ++ inner.atoms

/-- The members that are left, with their values.  A nested condition without atoms is left
out, and any other has its own value as a unit. -/
def memberValues (truth : List Char → Bool) : Assembly → List (Connective × Bool)
  | empty => []
  | atom before connective word =>
    before.memberValues truth ++ [(connective, truth word.toList)]
  | nested before connective inner =>
    before.memberValues truth ++
      if inner.atoms.isEmpty then []
      else [(connective, joinedValue (inner.memberValues truth))]

/-- The value of an assembled condition, by its structure. -/
def value (truth : List Char → Bool) (a : Assembly) : Bool := joinedValue (a.memberValues truth)

/-- A filter is its condition, made by the same calls. -/
theorem filter_eq (a : Assembly) : a.filter = ⟨a.condition⟩ := by
  induction a with
  | empty => rfl
  | atom before connective word ih =>
    cases connective with
    | and => rw [filter, ih, condition, Filter.and, Condition.and]
    | or => rw [filter, ih, condition, Filter.or, Condition.or]
  | nested before connective inner ih =>
    cases connective with
    | and => rw [filter, ih, condition, Filter.and, Condition.and]
    | or => rw [filter, ih, condition, Filter.or, Condition.or]

/-- Without atoms at any depth nothing is ever added. -/
theorem condition_of_atoms_nil {a : Assembly} (h : a.atoms = []) : a.condition = .empty := by
  induction a with
  | empty => rfl
  | atom before connective word ih => simp [atoms] at h
  | nested before connective inner ih ihinner =>
    obtain ⟨hbefore, hinner⟩ := List.append_eq_nil_iff.mp h
    have hblank : (toItem inner.condition).isBlank = true := by
      rw [ihinner hinner]
      rfl
    rw [condition, ih hbefore, Condition.add_blank hblank]

/-- With an atom at some depth a member is left. -/
theorem memberValues_ne_nil {a : Assembly} (h : a.atoms ≠ []) (truth : List Char → Bool) :
    a.memberValues truth ≠ [] := by
  induction a with
  | empty => exact absurd rfl h
  | atom before connective word ih => simp [memberValues]
  | nested before connective inner ih ihinner =>
    intro hnil
    obtain ⟨hbefore, hinner⟩ := List.append_eq_nil_iff.mp hnil
    by_cases hatoms : inner.atoms = []
    · have hleft : before.atoms ≠ [] := by
        intro hleft
        exact h (by rw [atoms, hleft, hatoms, List.append_nil])
      exact ih hleft hbefore
    · simp [hatoms] at hinner

end Assembly

/-! ## The text of items -/

/-- Blank leaves have no text. -/
theorem Leaf.textFrom_of_isBlank {leaves : List Leaf} (h : ∀ leaf ∈ leaves, leaf.isBlank = true)
    (p : Placeholder) (start : Nat) : textFrom p start leaves = "" := by
  induction leaves generalizing start with
  | nil => rfl
  | cons leaf rest ih =>
    rw [textFrom_cons, ih fun other hother => h other (by simp [hother])]
    have hleaf := h leaf (by simp)
    cases leaf with
    | literal code =>
      have hcode : code = "" := by simpa [isBlank] using hleaf
      simp [text, hcode]
    | value v => simp [isBlank] at hleaf

namespace Item

/-- The text of an item that stands first in a command. -/
def text (p : Placeholder) (item : Item) : List Char :=
  (Leaf.textFrom p 0 item.segment.leaves).toList

/-- An item is an operand with a value: it has no bound values, and its text is read so. -/
structure IsOperand (p : Placeholder) (truth : List Char → Bool) (item : Item) (v : Bool) :
    Prop where
  count : Leaf.count item.segment.leaves = 0
  hasValue : HasValue truth .operand (tokens (item.text p)) v

/-- A blank item has no text. -/
theorem text_of_isBlank {item : Item} (h : item.isBlank = true) (p : Placeholder) :
    item.text p = [] := by
  rw [text, Leaf.textFrom_of_isBlank ((isBlank_iff item).mp h)]
  rfl

/-- An operand is not blank. -/
theorem IsOperand.isBlank_eq_false {p : Placeholder} {truth : List Char → Bool} {item : Item}
    {v : Bool} (h : item.IsOperand p truth v) : item.isBlank = false := by
  rw [Bool.eq_false_iff]
  intro hblank
  have hvalue := h.hasValue
  rw [text_of_isBlank hblank] at hvalue
  exact hvalue.ne_nil rfl

/-- An atom is an operand with its truth. -/
theorem isOperand_code {word : String} (h : IsAtom word.toList) (p : Placeholder)
    (truth : List Char → Bool) : (Item.code word).IsOperand p truth (truth word.toList) where
  count := rfl
  hasValue := by
    have htext : (Item.code word).text p = word.toList := by
      simp [text, Segment.leaves, Leaf.textFrom_cons, Leaf.text]
    rw [htext, tokens_atom h]
    exact .atom word.toList

end Item

/-! ## The text of conditions -/

/-- Members of a condition are operands with the values beside them, in order. -/
def Condition.AreOperands (p : Placeholder) (truth : List Char → Bool)
    (members : List (Connective × Item)) (values : List (Connective × Bool)) : Prop :=
  List.Forall₂ (fun member value => member.1 = value.1 ∧ member.2.IsOperand p truth value.2)
    members values

namespace Condition

variable {p : Placeholder} {truth : List Char → Bool}

/-- The members of a condition as tokens. -/
def memberTokens (p : Placeholder) (members : List (Connective × Item)) :
    List (Connective × List Token) :=
  members.map fun (connective, item) => (connective, tokens (item.text p))

/-- The operands of a condition are those of its members' tokens, each of them between
parentheses. -/
theorem AreOperands.memberTokens {members : List (Connective × Item)}
    {values : List (Connective × Bool)} (h : AreOperands p truth members values) :
    Logic.AreOperands truth (memberTokens p members) values := by
  refine List.forall₂_map_left_iff.mpr (h.imp ?_)
  intro member value hmember
  exact ⟨hmember.1, hmember.2.hasValue⟩

/-- The members after the first bring no bound values, and their tokens are those of their
connectives and items. -/
theorem tokens_others {others : List (Connective × Item)} {values : List (Connective × Bool)}
    (h : AreOperands p truth others values) (before : List Char) :
    let leaves := Segment.leavesOf (others.flatMap fun (connective, item) =>
      [.literal connective.code, item.segment])
    Leaf.count leaves = 0 ∧
      tokens (before ++ (Leaf.textFrom p 0 leaves).toList) =
        tokens before ++ (memberTokens p others).flatMap fun (k, ts) => .connective k :: ts := by
  induction h generalizing before with
  | nil => simp [Segment.leavesOf, memberTokens]
  | @cons member value others values hmember _ ih =>
    obtain ⟨connective, item⟩ := member
    obtain ⟨hcount, htokens⟩ := ih (item.text p)
    have hitem : Leaf.count item.segment.leaves = 0 := hmember.2.count
    have hleaves : Segment.leavesOf (((connective, item) :: others).flatMap
          fun (connective, item) => [.literal connective.code, item.segment]) =
        .literal connective.code :: (item.segment.leaves ++
          Segment.leavesOf (others.flatMap fun (connective, item) =>
            [.literal connective.code, item.segment])) := by
      simp [Segment.leavesOf, Segment.leaves]
    rw [hleaves]
    generalize Segment.leavesOf (others.flatMap _) = leaves at hcount htokens
    refine ⟨by rw [Leaf.count_cons, Leaf.count_literal, Leaf.count_append, hitem, hcount], ?_⟩
    have htext : before ++ (Leaf.textFrom p 0 (.literal connective.code ::
          (item.segment.leaves ++ leaves))).toList =
        before ++ connective.code.toList ++
          (item.text p ++ (Leaf.textFrom p 0 leaves).toList) := by
      rw [Leaf.textFrom_cons, Leaf.textFrom_append, Leaf.count_literal, hitem]
      simp [Leaf.text, Item.text]
    rw [htext, tokens_connective, htokens]
    simp [memberTokens]

/-- The tokens of a condition alone are those of its members with connectives between. -/
theorem tokens_bare {c : Condition} {values : List (Connective × Bool)}
    (h : AreOperands p truth c.members values) :
    Leaf.count c.bare.leaves = 0 ∧
      tokens (Leaf.textFrom p 0 c.bare.leaves).toList =
        joinedTokens (memberTokens p c.members) := by
  obtain ⟨members⟩ := c
  cases h with
  | nil => exact ⟨rfl, rfl⟩
  | @cons member value others values hmember hothers =>
    obtain ⟨connective, item⟩ := member
    obtain ⟨hcount, htokens⟩ := tokens_others hothers (item.text p)
    have hitem : Leaf.count item.segment.leaves = 0 := hmember.2.count
    have hleaves : (Condition.bare ⟨(connective, item) :: others⟩).leaves =
        item.segment.leaves ++ Segment.leavesOf (others.flatMap fun (connective, item) =>
          [.literal connective.code, item.segment]) := rfl
    rw [hleaves, Leaf.count_append, Leaf.textFrom_append, hitem, String.toList_append]
    exact ⟨by rw [hcount], htokens⟩

/-- Inside another tree a condition is one operand with its joined value. -/
theorem isOperand_toItem {c : Condition} {values : List (Connective × Bool)}
    (hne : c.members ≠ []) (h : AreOperands p truth c.members values) :
    (toItem c).IsOperand p truth (joinedValue values) := by
  by_cases hseveral : 1 < c.length
  · obtain ⟨hcount, htokens⟩ := tokens_bare h
    have hmembers : memberTokens p c.members ≠ [] := by simpa [memberTokens] using hne
    have hleaves : (toItem c).segment.leaves =
        .literal "(" :: (c.bare.leaves ++ [.literal ")"]) := by
      change c.guarded.leaves = _
      rw [guarded, if_pos hseveral, Group.leaves_toQuery]
      rfl
    have htext : (toItem c).text p =
        '(' :: (Leaf.textFrom p 0 c.bare.leaves).toList ++ [')'] := by
      rw [Item.text, hleaves, Leaf.textFrom_cons, Leaf.textFrom_append]
      simp [Leaf.text, Leaf.textFrom_cons]
    constructor
    · rw [hleaves, Leaf.count_cons, Leaf.count_append, hcount]
      rfl
    · rw [htext, tokens_parenthesized, htokens]
      exact .parentheses (hasValue_joined hmembers h.memberTokens)
  · obtain ⟨members⟩ := c
    cases h with
    | nil => exact absurd rfl hne
    | @cons member value others values hmember hothers =>
      have hone : others = [] := by
        have hlength : ¬1 < others.length + 1 := hseveral
        exact List.eq_nil_of_length_eq_zero (by omega)
      subst hone
      cases hothers
      have hleaves : (toItem (Condition.mk [member])).segment.leaves =
          member.2.segment.leaves := by
        change Segment.leavesOf [member.2.segment] = _
        simp [Segment.leavesOf]
      have hvalue : joinedValue [value] = value.2 := by
        rw [joinedValue_group (List.cons_ne_nil _ _) (List.isChain_singleton _)]
        simp
      constructor
      · rw [hleaves]
        exact hmember.2.count
      · rw [Item.text, hleaves, hvalue]
        exact hmember.2.hasValue

end Condition

namespace Assembly

variable {truth : List Char → Bool}

/-- The members of an assembled condition are operands with the values of its structure. -/
theorem areOperands_members (p : Placeholder) (truth : List Char → Bool) {a : Assembly}
    (h : ∀ word ∈ a.atoms, IsAtom word.toList) :
    Condition.AreOperands p truth a.condition.members (a.memberValues truth) := by
  induction a with
  | empty => exact .nil
  | atom before connective word ih =>
    have hbefore := ih fun other hother => h other (by simp [atoms, hother])
    have hword := Item.isOperand_code (h word (by simp [atoms])) p truth
    rw [condition, Condition.members_add hword.isBlank_eq_false, memberValues]
    exact List.rel_append hbefore (.cons ⟨rfl, hword⟩ .nil)
  | nested before connective inner ih ihinner =>
    have hbefore := ih fun word hword => h word (by simp [atoms, hword])
    have hinner := ihinner fun word hword => h word (by simp [atoms, hword])
    rw [condition, memberValues]
    by_cases hatoms : inner.atoms = []
    · have hblank : (toItem inner.condition).isBlank = true := by
        rw [condition_of_atoms_nil hatoms]
        rfl
      rw [Condition.add_blank hblank]
      simpa [hatoms] using hbefore
    · have hmembers : inner.condition.members ≠ [] := by
        intro hnil
        rw [hnil] at hinner
        exact memberValues_ne_nil hatoms truth (List.forall₂_nil_left_iff.mp hinner)
      have hitem := Condition.isOperand_toItem hmembers hinner
      rw [Condition.members_add hitem.isBlank_eq_false]
      have hempty : inner.atoms.isEmpty = false := by simpa using hatoms
      rw [hempty]
      exact List.rel_append hbefore (.cons ⟨rfl, hitem⟩ .nil)

/-- With an atom at some depth a condition has members. -/
theorem members_ne_nil {a : Assembly} (h : ∀ word ∈ a.atoms, IsAtom word.toList)
    (hatoms : a.atoms ≠ []) : a.condition.members ≠ [] := by
  intro hnil
  have hmembers := areOperands_members .questionMark (fun _ => true) h
  rw [hnil] at hmembers
  exact memberValues_ne_nil hatoms _ (List.forall₂_nil_left_iff.mp hmembers)

/-- The text of an assembled condition with atoms has the value of its structure. -/
theorem hasValue_bare (p : Placeholder) (truth : List Char → Bool) {a : Assembly}
    (h : ∀ word ∈ a.atoms, IsAtom word.toList) (hatoms : a.atoms ≠ []) :
    HasValue truth .alternation (tokens (Leaf.textFrom p 0 a.condition.bare.leaves).toList)
      (a.value truth) := by
  have hmembers := areOperands_members p truth h
  have hne : Condition.memberTokens p a.condition.members ≠ [] := by
    simpa [Condition.memberTokens] using members_ne_nil h hatoms
  rw [(Condition.tokens_bare hmembers).2]
  exact hasValue_joined hne hmembers.memberTokens

end Assembly

/-! ## Commands -/

namespace Compiler

variable {c : Compiler}

/-- Without post-processing a command has the tokens of its text, normalized or not. -/
theorem tokens_finish (h : c.postProcess = none) (text : String) :
    tokens (c.finish text).toList = tokens text.toList := by
  simp only [finish, h, Option.elim_none]
  split
  · rw [Text.toList_collapseBlanks, tokens_spaced]
  · rfl

/-- A word in front of a text with tokens stays in front of the command. -/
theorem finish_where (h : c.postProcess = none) {text : String}
    (hne : tokens text.toList ≠ []) : c.finish ("WHERE " ++ text) = "WHERE " ++ c.finish text := by
  simp only [finish, h, Option.elim_none]
  split
  · have hword : Text.words "WHERE".toList = ["WHERE".toList] := rfl
    have htext : ("WHERE " ++ text).toList = "WHERE".toList ++ ' ' :: text.toList := by
      simp
    have hwords : Text.words text.toList ≠ [] := by
      intro hnil
      rw [← tokens_spaced, Text.spaced, hnil] at hne
      exact hne rfl
    have hspaced : Text.spaced ("WHERE " ++ text).toList =
        "WHERE".toList ++ ' ' :: Text.spaced text.toList := by
      have hfirst : Text.words "WHERE".toList ≠ [] := Text.words_ne_nil (by decide) _
      rw [htext, Text.spaced_append_blank hfirst (by decide) hwords, Text.spaced, hword,
        List.intercalate_singleton]
    rw [← String.toList_inj, Text.toList_collapseBlanks, hspaced]
    simp
  · rfl

/-- The empty text is left empty unless it is post-processed. -/
theorem finish_empty (h : c.postProcess = none) : c.finish "" = "" := by
  simp only [finish, h, Option.elim_none]
  split
  · rfl
  · rfl

/-- The command of a condition that was assembled from atoms and conditions, at any depth,
is an expression, and under every truth of the atoms its value is the one of the structure;
the command of the filter made by the same calls has the word before it.  Without an atom
at any depth both commands are empty. -/
theorem command_has_structural_value (c : Compiler) (hpost : c.postProcess = none) (a : Assembly)
    (hwords : ∀ word ∈ a.atoms, IsAtom word.toList) :
    (a.atoms ≠ [] →
      (∀ (truth : List Char → Bool) (v : Bool),
        HasValue truth .alternation (tokens (c.compile a.condition).command.toList) v ↔
          v = a.value truth) ∧
      (c.compile a.filter).command = "WHERE " ++ (c.compile a.condition).command) ∧
    (a.atoms = [] →
      (c.compile a.condition).command = "" ∧ (c.compile a.filter).command = "") := by
  have hcondition : c.compile a.condition = c.compile a.condition.bare := rfl
  have hfilter : c.compile a.filter = c.compile (toQuery a.filter) := rfl
  rw [hcondition, hfilter, compile_query, compile_query, Assembly.filter_eq]
  constructor
  · intro hatoms
    have hvalue := fun truth => Assembly.hasValue_bare c.placeholder truth hwords hatoms
    have hfull : Filter.isEmpty ⟨a.condition⟩ = false := by
      simpa [Filter.isEmpty, Condition.isEmpty] using Assembly.members_ne_nil hwords hatoms
    have hleaves : (toQuery (Filter.mk a.condition)).leaves =
        .literal "WHERE " :: a.condition.bare.leaves := by
      rw [Filter.toQuery_of_not_isEmpty hfull]
      simp [Query.leaves, Segment.leavesOf, Segment.leaves, Query.asSegment]
    constructor
    · intro truth v
      rw [tokens_finish hpost]
      constructor
      · intro h
        exact h.unique (hvalue truth)
      · rintro rfl
        exact hvalue truth
    · rw [hleaves, Leaf.textFrom_cons]
      exact finish_where hpost (hvalue fun _ => true).ne_nil
  · intro hatoms
    have hempty : Filter.isEmpty ⟨Condition.empty⟩ = true := rfl
    rw [Assembly.condition_of_atoms_nil hatoms, Filter.toQuery_of_isEmpty hempty]
    exact ⟨finish_empty hpost, finish_empty hpost⟩

/-- Two alternatives that are nested beside a condition without atoms: with the first of
them alone true, the conjunction is false, as it would not be without parentheses. -/
theorem command_has_structural_value_nested :
    let inner : Assembly := .atom (.atom .empty .and "a") .or "b"
    let a : Assembly := .atom (.nested (.nested .empty .or (.nested .empty .and .empty)) .or inner)
      .and "c"
    (∀ word ∈ a.atoms, IsAtom word.toList) ∧
      (numbered.compile a.condition).command = "(a OR b) AND c" ∧
      ∀ v, HasValue (· == ['a']) .alternation
        (tokens (numbered.compile a.condition).command.toList) v ↔ v = false := by
  intro inner a
  have hletter : ∀ c, Text.isBlank c = false ∧ c ≠ '(' ∧ c ≠ ')' → IsAtom [c] := by
    intro c hc
    exact ⟨List.cons_ne_nil _ _, List.forall_mem_singleton.mpr hc, by simp, by simp⟩
  have hwords : ∀ word ∈ a.atoms, IsAtom word.toList := by
    intro word hword
    have hmem : word ∈ ["a", "b", "c"] := hword
    simp only [List.mem_cons, List.not_mem_nil, or_false] at hmem
    rcases hmem with rfl | rfl | rfl
    · exact hletter 'a' (by decide)
    · exact hletter 'b' (by decide)
    · exact hletter 'c' (by decide)
  have hatoms : a.atoms ≠ [] := List.cons_ne_nil _ _
  have hmeaning := (command_has_structural_value numbered rfl a hwords).1 hatoms
  exact ⟨hwords, by decide +kernel, hmeaning.1 (· == ['a'])⟩

end Compiler

end SqlFragments
