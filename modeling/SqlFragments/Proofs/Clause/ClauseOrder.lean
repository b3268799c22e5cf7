import Mathlib.Data.List.Induction
import SqlFragments.Proofs.Clause.Parts

/-!
# The order of clauses

The calls that make a select statement may come in any order.  Each clause sees its own
calls only: a list keeps all of them in their order, a condition those that are not blank,
and the source, the limit and the offset keep the last one.  The statement is then written
clause by clause in the order of the language, and so are its placeholders numbered.

Main results:

- `Select.run_eq_statement`: the statement after a run of calls is the one of its clauses.
- `Select.Clauses.phrases_eq`: the pieces of a statement are the phrases of its clauses.
- `Select.command_in_clause_order`: runs that agree on every clause make one tree, and its
  command and bindings follow the order of the clauses.
-/

namespace SqlFragments

/-! ## Conditions made by calls -/

namespace Condition

/-- The condition that members make when they are added in order. -/
def ofMembers (members : List (Connective × Item)) : Condition :=
  members.foldl (fun c member => c.add member.1 member.2) empty

/-- Members given one more are the condition with this member added. -/
theorem ofMembers_concat (members : List (Connective × Item)) (connective : Connective)
    (item : Item) :
    ofMembers (members ++ [(connective, item)]) = (ofMembers members).add connective item :=
  List.foldl_append

/-- Of the members that are added, those that are not blank are left. -/
theorem members_ofMembers (members : List (Connective × Item)) :
    (ofMembers members).members = members.filter fun member => !member.2.isBlank := by
  induction members using List.reverseRecOn with
  | nil => rfl
  | append_singleton members member ih =>
    rw [ofMembers_concat, List.filter_append, ← ih]
    cases hblank : member.2.isBlank with
    | true => simp [add_blank hblank, hblank]
    | false => simp [members_add hblank, hblank]

end Condition

/-! ## Calls -/

namespace Select

/-- The clauses that are given items. -/
inductive ItemClause where
  | column
  | source
  | join
  | grouping
  | ordering
deriving DecidableEq

/-- The clauses that are given a value. -/
inductive ValueClause where
  | limit
  | offset
deriving DecidableEq

/-- A call that changes a statement. -/
inductive Call where
  | item (clause : ItemClause) (item : Item)
  | condition (connective : Connective) (item : Item)
  | value (clause : ValueClause) (v : Value)

/-- The statement after a call. -/
def apply (s : Select) : Call → Select
  | .item .column item => s.column item
  | .item .source item => s.withSource item
  | .item .join item => s.join item
  | .item .grouping item => s.groupBy item
  | .item .ordering item => s.orderBy item
  | .condition .and item => s.andWhere item
  | .condition .or item => s.orWhere item
  | .value .limit v => s.limitTo v
  | .value .offset v => s.offsetBy v

/-- The statement after a run of calls. -/
def run (calls : List Call) : Select := calls.foldl apply empty

namespace Call

/-- The item that a call gives to a clause. -/
def item? (clause : ItemClause) : Call → Option Item
  | .item given added => if given = clause then some added else none
  | _ => none

/-- The member that a call gives to the condition. -/
def member? : Call → Option (Connective × Item)
  | .condition connective added => some (connective, added)
  | _ => none

/-- The value that a call gives to a clause. -/
def value? (clause : ValueClause) : Call → Option Value
  | .value given v => if given = clause then some v else none
  | _ => none

/-- What a further call gives comes after what the calls before it give. -/
theorem filterMap_concat {α : Type} (see : Call → Option α) (calls : List Call) (call : Call) :
    (calls ++ [call]).filterMap see = calls.filterMap see ++ (see call).toList := by
  cases hsee : see call <;> simp [hsee]

end Call

/-! ## What calls give to each clause -/

/-- What a statement is made from, clause by clause. -/
structure Clauses where
  columns : List Item
  source : Option Item
  joins : List Item
  /-- All that is added to the condition, blank or not. -/
  conditions : List (Connective × Item)
  groupings : List Item
  orderings : List Item
  limit : Option Value
  offset : Option Value

namespace Clauses

/-- What a run of calls gives to each clause. -/
def ofCalls (calls : List Call) : Clauses where
  columns := calls.filterMap (Call.item? .column)
  source := (calls.filterMap (Call.item? .source)).getLast?
  joins := calls.filterMap (Call.item? .join)
  conditions := calls.filterMap Call.member?
  groupings := calls.filterMap (Call.item? .grouping)
  orderings := calls.filterMap (Call.item? .ordering)
  limit := (calls.filterMap (Call.value? .limit)).getLast?
  offset := (calls.filterMap (Call.value? .offset)).getLast?

/-- The statement with given clauses. -/
def statement (clauses : Clauses) : Select where
  columns := clauses.columns
  source := clauses.source
  joins := clauses.joins
  filter := ⟨.ofMembers clauses.conditions⟩
  groupings := clauses.groupings
  orderings := clauses.orderings
  limit := clauses.limit
  offset := clauses.offset

/-- One call more changes the statement as the call does: it reaches its own clause and
leaves every other one as it is. -/
theorem statement_ofCalls_concat (calls : List Call) (call : Call) :
    (ofCalls (calls ++ [call])).statement = (ofCalls calls).statement.apply call := by
  simp only [ofCalls, statement, Call.filterMap_concat]
  cases call with
  | item clause item =>
    cases clause <;>
      simp [apply, Call.item?, Call.member?, Call.value?, column, withSource, join, groupBy,
        orderBy]
  | condition connective item =>
    cases connective <;>
      simp [apply, Call.item?, Call.member?, Call.value?, andWhere, orWhere, Filter.and, Filter.or,
        Condition.and, Condition.or, Condition.ofMembers_concat]
  | value clause v =>
    cases clause <;> simp [apply, Call.item?, Call.member?, Call.value?, limitTo, offsetBy]

end Clauses

/-- The statement after a run of calls is the one of what the calls give to each clause. -/
theorem run_eq_statement (calls : List Call) : run calls = (Clauses.ofCalls calls).statement := by
  induction calls using List.reverseRecOn with
  | nil => rfl
  | append_singleton calls call ih =>
    rw [Clauses.statement_ofCalls_concat, ← ih]
    exact List.foldl_append

/-! ## Phrases -/

/-- The leaves of a list of items, with a comma and a space between neighbours. -/
def listLeaves (items : List Item) : List Leaf :=
  Leaf.joined ", " (items.map fun item => item.segment.leaves)

namespace Clauses

/-- What is selected: the columns, or everything. -/
def selection (clauses : Clauses) : List Leaf :=
  if clauses.columns.isEmpty then [.literal "*"] else listLeaves clauses.columns

/-- The phrases of a clause with a keyword and a list, which has to have items. -/
def listPhrases (keyword : String) (items : List Item) : List (List Leaf) :=
  if items.isEmpty then [] else [[.literal keyword], listLeaves items]

/-- The phrases of a clause with a keyword and leaves, if it is set. -/
def optionPhrases (keyword : String) (leaves : Option (List Leaf)) : List (List Leaf) :=
  leaves.elim [] fun leaves => [[.literal keyword], leaves]

/-- The phrase of the condition, if something was added that is not blank: the word and what
was added and is not blank, with the connectives between neighbours. -/
def conditionPhrases (conditions : List (Connective × Item)) : List (List Leaf) :=
  let shown := conditions.filter fun member => !member.2.isBlank
  if shown.isEmpty then []
  else [.literal "WHERE " :: Condition.joinedLeaves
    (shown.map fun (connective, item) => (connective, item.segment.leaves))]

/-- The phrases of a statement, in the order of the language. -/
def phrases (clauses : Clauses) : List (List Leaf) :=
  [[.literal "SELECT"], clauses.selection] ++
    optionPhrases "FROM" (clauses.source.map fun item => item.segment.leaves) ++
    (clauses.joins.map fun item => item.segment.leaves) ++
    conditionPhrases clauses.conditions ++
    listPhrases "GROUP BY" clauses.groupings ++
    listPhrases "ORDER BY" clauses.orderings ++
    optionPhrases "LIMIT" (clauses.limit.map fun v => [.value v]) ++
    optionPhrases "OFFSET" (clauses.offset.map fun v => [.value v])

end Clauses

/-- The phrases of a list are the leaves of its pieces. -/
theorem Clauses.listPhrases_eq (keyword : String) (items : List Item) :
    Clauses.listPhrases keyword items =
      (Parts.listPieces keyword (items.map Item.segment)).map Segment.leaves := by
  unfold Clauses.listPhrases Parts.listPieces
  rw [List.isEmpty_map]
  split
  · rfl
  · rw [List.map_cons, List.map_singleton, leaves_commaSegment, List.map_map]
    rfl

/-- The phrases of a clause that may be set are the leaves of its pieces. -/
theorem Clauses.optionPhrases_eq (keyword : String) (segment : Option Segment) :
    Clauses.optionPhrases keyword (segment.map Segment.leaves) =
      (Parts.optionPieces keyword segment).map Segment.leaves := by
  cases segment <;> rfl

/-- The phrase of the condition is the leaves of the filter. -/
theorem Clauses.conditionPhrases_eq (conditions : List (Connective × Item)) :
    Clauses.conditionPhrases conditions =
      (Parts.filterPieces (Condition.ofMembers conditions).parts).map Segment.leaves := by
  unfold Clauses.conditionPhrases Parts.filterPieces Filter.writeParts
  rw [Condition.parts, Condition.members_ofMembers]
  dsimp only
  rw [List.isEmpty_map]
  split
  · rfl
  · have hparts : ∀ members : List (Connective × Item),
        Segment.leavesOf (Condition.writeParts (members.map fun (connective, item) =>
          (connective, item.segment))) =
        Condition.joinedLeaves (members.map fun (connective, item) =>
          (connective, item.segment.leaves)) := by
      intro members
      rw [Condition.leavesOf_writeParts, List.map_map]
      rfl
    simp [Segment.leaves, Segment.leavesOf, hparts]

/-- The phrases of the clauses are the leaves of the pieces of the statement. -/
theorem Clauses.phrases_eq (clauses : Clauses) :
    clauses.phrases = clauses.statement.parts.pieces.map Segment.leaves := by
  have hselection : clauses.selection = clauses.statement.parts.selection.leaves := by
    unfold Clauses.selection Parts.selection Clauses.statement Select.parts
    rw [List.isEmpty_map]
    split
    · rfl
    · rw [leaves_commaSegment, List.map_map]
      rfl
  have hsource : optionPhrases "FROM" (clauses.source.map fun item => item.segment.leaves) =
      (Parts.optionPieces "FROM" clauses.statement.parts.source).map Segment.leaves := by
    rw [← optionPhrases_eq]
    exact congrArg _ (Option.map_map ..).symm
  have hjoins : (clauses.joins.map fun item => item.segment.leaves) =
      clauses.statement.parts.joins.map Segment.leaves := (List.map_map ..).symm
  have hvalue : ∀ (keyword : String) (v : Option Value),
      optionPhrases keyword (v.map fun v => [.value v]) =
        (Parts.optionPieces keyword (v.map Segment.value)).map Segment.leaves := by
    intro keyword v
    cases v <;> rfl
  rw [phrases, hselection, hsource, hjoins, conditionPhrases_eq, listPhrases_eq, listPhrases_eq,
    hvalue, hvalue, Parts.pieces]
  simp only [List.map_append]
  rfl

/-- The tree that a run of calls makes is determined by what the calls give to each clause:
the columns, joins, conditions, groupings and orderings in their order, and the last source,
limit and offset.  Its command is the phrases of the clauses in the order of the language,
joined by spaces, with the values numbered and bound in this order. -/
theorem command_in_clause_order (calls : List Call) :
    (∀ others, Clauses.ofCalls calls = Clauses.ofCalls others →
      toQuery (run calls) = toQuery (run others)) ∧
    ∀ c : Compiler, c.compile (run calls) =
      ⟨c.finish (" ".intercalate
          (Leaf.textsFrom c.placeholder 0 (Clauses.ofCalls calls).phrases)),
        (Clauses.ofCalls calls).phrases.flatMap Leaf.values⟩ := by
  constructor
  · intro others h
    rw [run_eq_statement, h, ← run_eq_statement]
  · intro c
    have hquery : c.compile (run calls) = c.compile (toQuery (run calls)) := rfl
    rw [hquery, run_eq_statement, c.compile_query, leaves_toQuery, ← Clauses.phrases_eq,
      Leaf.textFrom_joined, Leaf.values_joined]

/-- Two runs with the same calls for every clause, one of them with a limit that is replaced.
Of three conditions the blank one is left out, and the values of the others come before the
limit, though their calls come later. -/
theorem command_in_clause_order_interleaved :
    let equal : Item := .query ⟨[.literal "x = ", .value (.int 7)]⟩
    let less : Item := .query ⟨[.literal "y < ", .value (.int 9)]⟩
    let calls : List Call := [.value .limit (.int 5), .item .column (.code "a"),
      .condition .or (.code ""), .item .source (.code "t"), .item .column (.code "b"),
      .value .limit (.int 3), .condition .and equal, .condition .or less]
    let others : List Call := [.condition .or (.code ""), .condition .and equal,
      .item .source (.code "t"), .value .limit (.int 3), .condition .or less,
      .item .column (.code "a"), .item .column (.code "b")]
    Clauses.ofCalls calls = Clauses.ofCalls others ∧
      toQuery (run calls) = toQuery (run others) ∧
      Compiler.numbered.compile (run calls) =
        ⟨"SELECT a, b FROM t WHERE x = $1 OR y < $2 LIMIT $3", [.int 7, .int 9, .int 3]⟩ := by
  intro equal less calls others
  exact ⟨rfl, (command_in_clause_order calls).1 others rfl, by decide +kernel⟩

end Select

end SqlFragments
