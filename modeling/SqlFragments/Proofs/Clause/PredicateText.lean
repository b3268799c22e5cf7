import SqlFragments.Clause.Predicate
import SqlFragments.Proofs.Compiler.Joining
import SqlFragments.Proofs.Identifier.Grammar

/-!
# The text of predicates

Every predicate has one fixed operator, and its values follow with one placeholder each.
Wherever a predicate stands in a tree, it writes its column, the operator and the
placeholders, numbered from the values before it.  The column is written as it was given,
since an identifier is written as it is read; and it is checked first, also where an empty
list makes the predicate a constant without a column.

Main results:

- `ValueList.leaves_ofValues`: a list of values is the values with commas between.
- `textFrom_query`, `values_query`: the text and the values of a predicate on a column.
- `predicates_write_their_column`: when a predicate is refused, and what it contributes to
  the command of every tree.
-/

namespace SqlFragments

/-! ## Lists of values -/

/-- The tokens of a number of values that have `start` values before them. -/
def Placeholder.tokensFrom (p : Placeholder) (start count : Nat) : List String :=
  (List.range count).map fun i => p.token (start + i)

@[simp]
theorem Placeholder.tokensFrom_zero (p : Placeholder) (start : Nat) :
    p.tokensFrom start 0 = [] := rfl

/-- The first of several tokens has the first number. -/
theorem Placeholder.tokensFrom_succ (p : Placeholder) (start count : Nat) :
    p.tokensFrom start (count + 1) = p.token start :: p.tokensFrom (start + 1) count := by
  simp [tokensFrom, List.range_succ_eq_map, Nat.add_assoc, Nat.add_comm 1]

/-- Values one by one are written as tokens. -/
theorem Leaf.textsFrom_values (p : Placeholder) (start : Nat) (values : List Value) :
    textsFrom p start (values.map fun v => [.value v]) = p.tokensFrom start values.length := by
  induction values generalizing start with
  | nil => rfl
  | cons v values ih =>
    rw [List.map_cons, textsFrom, count_value, ih, List.length_cons, Placeholder.tokensFrom_succ]
    simp [textFrom_cons, text]

/-- A list of values is the values with commas between. -/
theorem ValueList.leaves_ofValues (values : List Value) :
    (toQuery (ofValues values)).leaves = Leaf.joined "," (values.map fun v => [.value v]) := by
  have hjoins : (ofValues values).items.Joins "," (values.map fun v => [.value v]) :=
    ⟨values.map .value, items_foldl_value values empty, by simp [Segment.leaves]⟩
  exact hjoins.leaves_build

namespace Predicate

/-! ## What a predicate writes -/

/-- The values that a predicate binds, in order. -/
def arguments : Predicate → List Value
  | .compare _ v => [v]
  | .isNull => []
  | .isNotNull => []
  | .inList values => values
  | .notIn values => values
  | .between low high => [low, high]

/-- What a predicate writes right after its column. -/
def operator : Predicate → String
  | .compare .eq _ => " = "
  | .compare .ne _ => " != "
  | .compare .gt _ => " > "
  | .compare .ge _ => " >= "
  | .compare .lt _ => " < "
  | .compare .le _ => " <= "
  | .compare .like _ => " LIKE "
  | .compare .ilike _ => " ILIKE "
  | .isNull => " IS NULL"
  | .isNotNull => " IS NOT NULL"
  | .inList _ => " IN ("
  | .notIn _ => " NOT IN ("
  | .between _ _ => " BETWEEN "

/-- What a predicate writes between two placeholders. -/
def glue : Predicate → String
  | .between _ _ => " AND "
  | _ => ","

/-- What a predicate writes after its last placeholder. -/
def closing : Predicate → String
  | .inList _ => ")"
  | .notIn _ => ")"
  | _ => ""

/-- The constant that a predicate is if no value can be in its list. -/
def constant? : Predicate → Option String
  | .inList [] => some "1=0"
  | .notIn [] => some "1=1"
  | _ => none

/-- What a predicate writes after its column, with `start` values before it. -/
def afterColumn (placeholder : Placeholder) (start : Nat) (p : Predicate) : String :=
  p.operator ++ p.glue.intercalate (placeholder.tokensFrom start p.arguments.length) ++ p.closing

/-- What a predicate on a column writes, with `start` values before it. -/
def text (placeholder : Placeholder) (start : Nat) (column : String) (p : Predicate) : String :=
  p.constant?.getD (column ++ p.afterColumn placeholder start)

/-! ## The leaves of a predicate -/

/-- The leaves of a membership in a list that is not empty. -/
theorem leaves_membership (column : Identifier) (code : String) {values : List Value}
    (h : values ≠ []) (whenEmpty : String) :
    (membership column code values whenEmpty).leaves =
      .literal column.toSql :: .literal s!" {code} " :: .literal "(" ::
        (Leaf.joined "," (values.map fun v => [.value v]) ++ [.literal ")"]) := by
  have hfull : (ValueList.ofValues values).isEmpty = false := by
    rcases List.exists_cons_of_ne_nil h with ⟨v, others, rfl⟩
    rw [ValueList.isEmpty, Builder.isEmpty, ValueList.segments_ofValues]
    rfl
  have hleaves : (membership column code values whenEmpty).leaves =
      .literal column.toSql :: .literal s!" {code} " ::
        ((toQuery (ValueList.ofValues values).parenthesized).leaves ++ []) := by
    simp only [membership, hfull]
    rfl
  have hlist : (ValueList.ofValues values).parenthesized.inner.segment.leaves = _ :=
    ValueList.leaves_ofValues values
  rw [hleaves, List.append_nil, Group.leaves_toQuery, hlist, List.cons_append]

/-- Code in front of leaves stands in front of their text. -/
theorem textFrom_column (placeholder : Placeholder) (start : Nat) (column code : String)
    (rest : List Leaf) :
    Leaf.textFrom placeholder start (.literal column :: .literal code :: rest) =
      column ++ (code ++ Leaf.textFrom placeholder start rest) := by
  simp [Leaf.textFrom_cons, Leaf.text]

/-- Membership among given values is written with one token for each of them, between
parentheses and with commas. -/
theorem textFrom_membership (placeholder : Placeholder) (start : Nat) (column : Identifier)
    (code : String) {values : List Value} (h : values ≠ []) (whenEmpty : String) :
    Leaf.textFrom placeholder start (membership column code values whenEmpty).leaves =
      column.toSql ++ (s!" {code} " ++ "(" ++
        ",".intercalate (placeholder.tokensFrom start values.length) ++ ")") := by
  rw [leaves_membership column code h, textFrom_column]
  simp [Leaf.textFrom_cons, Leaf.textFrom_append, Leaf.text, Leaf.textFrom_joined,
    Leaf.textsFrom_values, String.append_assoc]

/-- The text of a predicate is its code around its column, with one token for each argument. -/
theorem textFrom_query (placeholder : Placeholder) (start : Nat) (column : Identifier)
    (p : Predicate) :
    Leaf.textFrom placeholder start (p.query column).leaves =
      p.text placeholder start column.toSql := by
  cases p with
  | compare comparison v =>
    have hleaves : (query column (.compare comparison v)).leaves =
        [.literal column.toSql, .literal s!" {comparison.code} ", .value v] := rfl
    have hoperator : s!" {comparison.code} " = operator (.compare comparison v) := by
      cases comparison <;> rfl
    rw [hleaves, textFrom_column, hoperator]
    simp [text, constant?, afterColumn, glue, closing, arguments, Placeholder.tokensFrom_succ,
      Leaf.textFrom_cons, Leaf.text]
  | isNull =>
    have hleaves : (query column .isNull).leaves =
        [.literal column.toSql, .literal " IS NULL"] := rfl
    rw [hleaves, textFrom_column]
    simp [text, constant?, afterColumn, operator, closing, arguments]
  | isNotNull =>
    have hleaves : (query column .isNotNull).leaves =
        [.literal column.toSql, .literal " IS NOT NULL"] := rfl
    rw [hleaves, textFrom_column]
    simp [text, constant?, afterColumn, operator, closing, arguments]
  | inList values =>
    cases values with
    | nil => rfl
    | cons v values =>
      exact textFrom_membership placeholder start column "IN" (List.cons_ne_nil v values) "1=0"
  | notIn values =>
    cases values with
    | nil => rfl
    | cons v values =>
      exact textFrom_membership placeholder start column "NOT IN" (List.cons_ne_nil v values) "1=1"
  | between low high =>
    have hleaves : (query column (.between low high)).leaves =
        [.literal column.toSql, .literal " BETWEEN ", .value low, .literal " AND ",
          .value high] := rfl
    rw [hleaves, textFrom_column]
    simp [text, constant?, afterColumn, operator, glue, closing, arguments,
      Placeholder.tokensFrom_succ, Leaf.textFrom_cons, Leaf.text, String.append_assoc]

/-- A predicate binds its arguments, in order. -/
theorem values_query (column : Identifier) (p : Predicate) :
    Leaf.values (p.query column).leaves = p.arguments := by
  have hlist : ∀ {values : List Value}, values ≠ [] → ∀ code whenEmpty,
      Leaf.values (membership column code values whenEmpty).leaves = values := by
    intro values h code whenEmpty
    rw [leaves_membership column code h]
    simp [Leaf.values_joined, List.flatMap_map]
  cases p with
  | compare comparison v => rfl
  | isNull => rfl
  | isNotNull => rfl
  | inList values =>
    cases values with
    | nil => rfl
    | cons v values => exact hlist (List.cons_ne_nil v values) _ _
  | notIn values =>
    cases values with
    | nil => rfl
    | cons v values => exact hlist (List.cons_ne_nil v values) _ _
  | between low high => rfl

/-! ## Predicates in trees -/

/-- A query contributes the text and the values of a predicate to every tree that it stands
in: the number of its first placeholder is the number of values before the place, and the
values after it have the numbers that follow. -/
def Contributes (p : Predicate) (column : String) (q : Query) : Prop :=
  ∀ (c : Compiler) (levels : List Surrounding),
    let before := Surrounding.leavesBefore levels
    let after := Surrounding.leavesAfter levels
    let start := Leaf.count before
    c.compile (Surrounding.place q levels) =
      ⟨c.finish (Leaf.textFrom c.placeholder 0 before ++ p.text c.placeholder start column ++
          Leaf.textFrom c.placeholder (start + p.arguments.length) after),
        Leaf.values before ++ p.arguments ++ Leaf.values after⟩

/-- A predicate contributes its code and its arguments wherever it is put. -/
theorem contributes_query (column : Identifier) (p : Predicate) :
    p.Contributes column.toSql (p.query column) := by
  intro c levels before after start
  have hcount : Leaf.count (p.query column).leaves = p.arguments.length := by
    rw [Leaf.count, values_query]
  rw [c.compile_place, textFrom_query, hcount, values_query]

/-- Every predicate on a text is refused exactly when the text is no identifier, whatever its
values are; otherwise it gives a query that contributes the text as it stands, the operator
with one placeholder for each value, and the values in order, wherever it is put.  On an
empty list it contributes a constant alone.  A predicate on an identifier contributes the
same, with the column as the identifier is written. -/
theorem predicates_write_their_column :
    (∀ (column : String) (p : Predicate),
      ((∃ fault, p.ofText column = .error (.invalidIdent fault)) ↔
        ¬Identifier.IsGrammatical column) ∧
      (Identifier.IsGrammatical column →
        ∃ q, p.ofText column = .ok q ∧ p.Contributes column q)) ∧
    ∀ (column : Identifier) (p : Predicate), p.Contributes column.toSql (p.query column) := by
  refine ⟨?_, contributes_query⟩
  intro column p
  constructor
  · simp only [ofText_error_iff]
    exact Identifier.exists_parse_error_iff column
  · intro hgrammar
    rcases hgrammar.exists_parse with ⟨i, hparse, hwrite⟩
    refine ⟨p.query i, ?_, ?_⟩
    · rw [ofText, hparse]
      rfl
    · rw [← hwrite]
      exact contributes_query i p

/-- A column with a quote in its name and a list of two values, after another value. -/
theorem predicates_write_their_column_quoted :
    let levels : List Surrounding := [⟨[.literal "("], [.literal ")"]⟩, ⟨[.value .null], []⟩]
    Identifier.IsGrammatical "t.\"a\"\"b\"" ∧
      ∃ q, (Predicate.inList [.null, .bool true]).ofText "t.\"a\"\"b\"" = .ok q ∧
        Compiler.numbered.compile (Surrounding.place q levels) =
          ⟨"$1(t.\"a\"\"b\" IN ($2,$3))", [.null, .null, .bool true]⟩ := by
  intro levels
  have hgrammar : Identifier.IsGrammatical "t.\"a\"\"b\"" := by
    refine ⟨[.unquoted "t", .quoted "a\"b"], List.cons_ne_nil _ _, ?_, by decide +kernel⟩
    intro part hpart
    simp only [List.mem_cons, List.not_mem_nil, or_false] at hpart
    rcases hpart with rfl | rfl
    · exact ⟨'t', [], rfl, .inl (.inr ⟨by decide, by decide⟩), by simp⟩
    · exact ⟨by decide, by decide⟩
  rcases (predicates_write_their_column.1 _ _).2 hgrammar with ⟨q, hq, hcontributes⟩
  exact ⟨hgrammar, q, hq, (hcontributes Compiler.numbered levels).trans (by decide +kernel)⟩

end Predicate

end SqlFragments
