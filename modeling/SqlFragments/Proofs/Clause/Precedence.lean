import Mathlib.Data.List.SplitBy
import SqlFragments.Clause.Condition
import SqlFragments.Proofs.Text.Spacing

/-!
# Boolean expressions with precedence

A text is read as an expression over atoms, AND, OR and parentheses.  Its words are
tokens, and a parenthesis is a token wherever it stands.  The grammar has three levels,
so that AND joins more tightly than OR, and it gives every expression its value.  A
reader that goes over the tokens once finds the same value, so the grammar gives no
text two values.

Main results:

- `tokens_spaced`: making blanks single spaces keeps the tokens.
- `HasValue.run`: the reader finds the value that the grammar gives.
- `HasValue.unique`: an expression has one value.
- `hasValue_joined`: operands with connectives between them have the joined value.
-/

namespace SqlFragments.Logic

/-! ## Tokens -/

/-- A token of an expression. -/
inductive Token where
  | opening
  | closing
  | connective (k : Connective)
  | atom (word : List Char)
deriving DecidableEq

/-- The token that AND is. -/
abbrev Token.and : Token := .connective .and

/-- The token that OR is. -/
abbrev Token.or : Token := .connective .or

/-- The token that a word is. -/
def Token.ofWord (word : List Char) : Token :=
  if word = ['('] then .opening
  else if word = [')'] then .closing
  else if word = ['A', 'N', 'D'] then .and
  else if word = ['O', 'R'] then .or
  else .atom word

/-- A character with blanks around it if it is a parenthesis. -/
def detach (c : Char) : List Char := if c = '(' ∨ c = ')' then [' ', c, ' '] else [c]

/-- The tokens of a text: its parentheses, and the words between blanks and parentheses. -/
def tokens (text : List Char) : List Token :=
  (Text.words (text.flatMap detach)).map Token.ofWord

@[simp]
theorem tokens_nil : tokens [] = [] := rfl

/-- The tokens on the two sides of a blank are found apart. -/
theorem tokens_append_blank (text : List Char) (c : Char) (rest : List Char)
    (h : Text.isBlank c = true) : tokens (text ++ c :: rest) = tokens text ++ tokens rest := by
  have hsingle : detach c = [c] := by
    have hne : ¬(c = '(' ∨ c = ')') := by
      rintro (rfl | rfl)
      · exact absurd h (by decide)
      · exact absurd h (by decide)
    simp [detach, hne]
  rw [tokens, List.flatMap_append, List.flatMap_cons, hsingle, List.singleton_append,
    Text.words_append_blank _ h, List.map_append, tokens, tokens]

/-- Making blanks single spaces keeps the tokens. -/
theorem tokens_spaced (text : List Char) : tokens (Text.spaced text) = tokens text :=
  Text.eq_of_spaced tokens tokens_nil tokens_append_blank text

/-- A text between parentheses has the two parentheses around its tokens. -/
theorem tokens_parenthesized (text : List Char) :
    tokens ('(' :: text ++ [')']) = .opening :: tokens text ++ [.closing] := by
  have hspace : Text.isBlank ' ' = true := by decide
  have hword : ∀ c, Text.isBlank c = false → Text.words [c] = [[c]] := by
    intro c hc
    exact Text.words_of_noBlank (List.cons_ne_nil _ _) (List.forall_mem_singleton.mpr hc)
  have htext : ('(' :: text ++ [')']).flatMap detach =
      ' ' :: (['('] ++ ' ' :: (text.flatMap detach ++ ' ' :: ([')'] ++ ' ' :: []))) := by
    simp [detach]
  rw [tokens, htext, Text.words_cons_blank hspace, Text.words_append_blank _ hspace,
    Text.words_append_blank _ hspace, Text.words_append_blank _ hspace,
    hword '(' (by decide), hword ')' (by decide)]
  simp [tokens, Token.ofWord]

/-- A word that is an atom: it is no connective and has neither blanks nor parentheses. -/
def IsAtom (word : List Char) : Prop :=
  word ≠ [] ∧ (∀ c ∈ word, Text.isBlank c = false ∧ c ≠ '(' ∧ c ≠ ')') ∧
    word ≠ ['A', 'N', 'D'] ∧ word ≠ ['O', 'R']

/-- An atom is one token. -/
theorem tokens_atom {word : List Char} (h : IsAtom word) : tokens word = [.atom word] := by
  obtain ⟨hne, hchars, hand, hor⟩ := h
  have hsame : word.flatMap detach = word := by
    rw [List.flatMap_congr fun c hc => (?_ : detach c = [c]), List.flatMap_singleton']
    have hne : ¬(c = '(' ∨ c = ')') := by
      rintro (hc' | hc')
      · exact (hchars c hc).2.1 hc'
      · exact (hchars c hc).2.2 hc'
    simp [detach, hne]
  have hopening : word ≠ ['('] := by
    rintro rfl
    exact (hchars '(' (by simp)).2.1 rfl
  have hclosing : word ≠ [')'] := by
    rintro rfl
    exact (hchars ')' (by simp)).2.2 rfl
  rw [tokens, hsame, Text.words_of_noBlank hne fun c hc => (hchars c hc).1]
  simp [Token.ofWord, hopening, hclosing, hand, hor]

/-- A connective between two texts is one token between theirs. -/
theorem tokens_connective (text rest : List Char) (k : Connective) :
    tokens (text ++ k.code.toList ++ rest) = tokens text ++ .connective k :: tokens rest := by
  have hspace : Text.isBlank ' ' = true := by decide
  have hword : ∃ word, k.code.toList = ' ' :: word ++ [' '] ∧ tokens word = [.connective k] := by
    cases k with
    | and => exact ⟨['A', 'N', 'D'], rfl, rfl⟩
    | or => exact ⟨['O', 'R'], rfl, rfl⟩
  obtain ⟨word, hcode, htoken⟩ := hword
  have htext : text ++ k.code.toList ++ rest = text ++ ' ' :: (word ++ ' ' :: rest) := by
    simp [hcode]
  rw [htext, tokens_append_blank _ _ _ hspace, tokens_append_blank _ _ _ hspace, htoken,
    List.singleton_append]

/-! ## The grammar -/

/-- The three levels of expressions. -/
inductive Level where
  | operand
  | conjunction
  | alternation

/-- What is an expression of a level, and its value when atoms are as true as `truth` says. -/
inductive HasValue (truth : List Char → Bool) : Level → List Token → Bool → Prop
  | atom (word : List Char) : HasValue truth .operand [.atom word] (truth word)
  | parentheses {ts : List Token} {v : Bool} (inner : HasValue truth .alternation ts v) :
    HasValue truth .operand (.opening :: ts ++ [.closing]) v
  | operand {ts : List Token} {v : Bool} (only : HasValue truth .operand ts v) :
    HasValue truth .conjunction ts v
  | and {ts us : List Token} {v w : Bool} (before : HasValue truth .conjunction ts v)
    (last : HasValue truth .operand us w) : HasValue truth .conjunction (ts ++ .and :: us) (v && w)
  | conjunction {ts : List Token} {v : Bool} (only : HasValue truth .conjunction ts v) :
    HasValue truth .alternation ts v
  | or {ts us : List Token} {v w : Bool} (first : HasValue truth .conjunction ts v)
    (others : HasValue truth .alternation us w) :
    HasValue truth .alternation (ts ++ .or :: us) (v || w)

variable {truth : List Char → Bool}

/-- No expression is empty. -/
theorem HasValue.ne_nil {level : Level} {ts : List Token} {v : Bool}
    (h : HasValue truth level ts v) : ts ≠ [] := by
  induction h with
  | atom word => simp
  | parentheses inner ih => simp
  | operand only ih => exact ih
  | and before last ih ih' => simp
  | conjunction only ih => exact ih
  | or first others ih ih' => simp

/-! ## One pass over the tokens -/

/-- What is known inside one pair of parentheses: the value of the alternatives that are
complete, and the value of the operands since the last OR. -/
structure Pending where
  any : Bool
  all : Bool

namespace Pending

/-- What is known before the first operand. -/
def start : Pending := ⟨false, true⟩

/-- What is known after one more operand. -/
def meet (p : Pending) (v : Bool) : Pending := ⟨p.any, p.all && v⟩

/-- What is known after an OR. -/
def next (p : Pending) : Pending := ⟨p.any || p.all, true⟩

/-- The value of an expression that is complete. -/
def value (p : Pending) : Bool := p.any || p.all

end Pending

/-- The value of an expression, found in one pass.  With `due` an operand comes next, and
otherwise a connective or an end; what is known outside the innermost parentheses is kept
on a stack. -/
def run (truth : List Char → Bool) : List Token → Bool → Pending → List Pending → Option Bool
  | .atom word :: ts, true, p, stack => run truth ts false (p.meet (truth word)) stack
  | .opening :: ts, true, p, stack => run truth ts true .start (p :: stack)
  | .connective .and :: ts, false, p, stack => run truth ts true p stack
  | .connective .or :: ts, false, p, stack => run truth ts true p.next stack
  | .closing :: ts, false, p, q :: stack => run truth ts false (q.meet p.value) stack
  | [], false, p, [] => some p.value
  | _, _, _, _ => none

/-- What one pass does with an expression of a level: it takes an operand or a conjunction
as one operand, and what it knows after an alternation has its value. -/
def IsPassed (truth : List Char → Bool) : Level → List Token → Bool → Prop
  | .alternation, ts, v => ∀ any, ∃ q : Pending, q.value = (any || v) ∧ ∀ rest stack,
    run truth (ts ++ rest) true ⟨any, true⟩ stack = run truth rest false q stack
  | _, ts, v => ∀ (p : Pending) (rest : List Token) (stack : List Pending),
    run truth (ts ++ rest) true p stack = run truth rest false (p.meet v) stack

/-- A value at a level is what an expression of this level passes on to the next one. -/
theorem HasValue.isPassed {level : Level} {ts : List Token} {v : Bool}
    (h : HasValue truth level ts v) : IsPassed truth level ts v := by
  induction h with
  | atom word =>
    intro p rest stack
    rfl
  | @parentheses ts v inner ih =>
    intro p rest stack
    obtain ⟨q, hvalue, hrun⟩ := ih false
    have htext : .opening :: ts ++ [.closing] ++ rest = .opening :: (ts ++ .closing :: rest) := by
      simp
    have hinner := hrun (.closing :: rest) (p :: stack)
    rw [htext, run, Pending.start, hinner, run, hvalue, Bool.false_or]
  | operand only ih => exact ih
  | @and ts us v w before last ih ih' =>
    intro p rest stack
    have hbefore := ih p (.and :: (us ++ rest)) stack
    have hlast := ih' (p.meet v) rest stack
    rw [List.append_assoc, List.cons_append, hbefore, run, hlast]
    simp [Pending.meet, Bool.and_assoc]
  | @conjunction ts v only ih =>
    intro any
    exact ⟨Pending.meet ⟨any, true⟩ v, by simp [Pending.meet, Pending.value], ih _⟩
  | @or ts us v w first others ih ih' =>
    intro any
    obtain ⟨q, hvalue, hrun⟩ := ih' (any || v)
    refine ⟨q, by rw [hvalue, Bool.or_assoc], ?_⟩
    intro rest stack
    have hfirst := ih ⟨any, true⟩ (.or :: (us ++ rest)) stack
    have hnext : (Pending.meet ⟨any, true⟩ v).next = ⟨any || v, true⟩ := by
      simp [Pending.meet, Pending.next]
    rw [List.append_assoc, List.cons_append, hfirst, run, hnext, hrun]

/-- An expression has one value. -/
theorem HasValue.unique {ts : List Token} {v w : Bool} (h : HasValue truth .alternation ts v)
    (h' : HasValue truth .alternation ts w) : v = w := by
  have hpass : ∀ {v}, HasValue truth .alternation ts v → run truth ts true .start [] = some v := by
    intro v h
    obtain ⟨q, hvalue, hrun⟩ := h.isPassed false
    have hlast := hrun [] []
    rw [List.append_nil] at hlast
    rw [Pending.start, hlast, run, hvalue, Bool.false_or]
  exact Option.some.inj ((hpass h).symm.trans (hpass h'))

/-! ## Operands with connectives between them -/

/-- The value of operands that are joined in order.  The operands from one OR to the next
belong together, and the connective of the first operand is not looked at. -/
def joinedValue (members : List (Connective × Bool)) : Bool :=
  (members.splitBy fun _ member => member.1 == .and).any fun group => group.all (·.2)

/-- The tokens of operands that are joined in order. -/
def joinedTokens : List (Connective × List Token) → List Token
  | [] => []
  | (_, first) :: others => first ++ others.flatMap fun (k, ts) => .connective k :: ts

/-- Operands that belong together are a conjunction. -/
theorem joinedValue_group {group : List (Connective × Bool)} (hne : group ≠ [])
    (h : group.IsChain fun _ member => (member.1 == .and) = true) :
    joinedValue group = group.all (·.2) := by
  rw [joinedValue, List.splitBy_of_isChain hne h]
  simp

/-- An OR ends the operands that belong together. -/
theorem joinedValue_append_or {group : List (Connective × Bool)} (hne : group ≠ [])
    (h : group.IsChain fun _ member => (member.1 == .and) = true) (v : Bool)
    (rest : List (Connective × Bool)) :
    joinedValue (group ++ (.or, v) :: rest) =
      (group.all (·.2) || joinedValue ((.or, v) :: rest)) := by
  have hends : ∀ member ∈ group.getLast?, ((Connective.or, v).1 == .and) = false := by
    intro _ _
    rfl
  rw [joinedValue, List.splitBy_append_cons rest hends, List.splitBy_of_isChain hne h]
  simp [joinedValue]

/-- Members are operands with the values beside them, in order. -/
def AreOperands (truth : List Char → Bool) (members : List (Connective × List Token))
    (values : List (Connective × Bool)) : Prop :=
  List.Forall₂ (fun member value => member.1 = value.1 ∧
    HasValue truth .operand member.2 value.2) members values

/-- A conjunction of operands that belong together goes on with other members. -/
theorem hasValue_group {others : List (Connective × List Token)}
    {group values : List (Connective × Bool)} {ts : List Token} (hne : group ≠ [])
    (hgroup : group.IsChain fun _ member => (member.1 == .and) = true)
    (hts : HasValue truth .conjunction ts (group.all (·.2)))
    (h : AreOperands truth others values) :
    HasValue truth .alternation (ts ++ others.flatMap fun (k, us) => .connective k :: us)
      (joinedValue (group ++ values)) := by
  induction others generalizing group values ts with
  | nil =>
    cases h
    rw [List.flatMap_nil, List.append_nil, List.append_nil, joinedValue_group hne hgroup]
    exact .conjunction hts
  | cons member others ih =>
    cases h with
    | @cons _ value _ values hmember hothers =>
      obtain ⟨k, us⟩ := member
      obtain ⟨k', v⟩ := value
      obtain ⟨rfl, hus⟩ := hmember
      have hone : HasValue truth .conjunction us ([(k, v)].all (·.2)) := by
        simpa using HasValue.operand hus
      cases k with
      | and =>
        have hlonger : (group ++ [(Connective.and, v)]).IsChain
            fun _ member => (member.1 == .and) = true := by
          refine List.isChain_append.mpr ⟨hgroup, List.isChain_singleton _, ?_⟩
          intro _ _ member hmember
          obtain rfl : (Connective.and, v) = member := by simpa using hmember
          rfl
        have hall : HasValue truth .conjunction (ts ++ .and :: us)
            ((group ++ [(Connective.and, v)]).all (·.2)) := by
          rw [List.all_append]
          simpa using HasValue.and hts hus
        have hrest := ih (by simp) hlonger hall hothers
        simpa using hrest
      | or =>
        have hrest := ih (List.cons_ne_nil _ _) (List.isChain_singleton _) hone hothers
        rw [joinedValue_append_or hne hgroup]
        exact .or hts hrest

/-- Operands with connectives between them have the joined value. -/
theorem hasValue_joined {members : List (Connective × List Token)}
    {values : List (Connective × Bool)} (hne : members ≠ [])
    (h : AreOperands truth members values) :
    HasValue truth .alternation (joinedTokens members) (joinedValue values) := by
  cases h with
  | nil => exact absurd rfl hne
  | @cons member value members values hmember hmembers =>
    have hfirst : HasValue truth .conjunction member.2 ([value].all (·.2)) := by
      simpa using HasValue.operand hmember.2
    exact hasValue_group (List.cons_ne_nil _ _) (List.isChain_singleton _) hfirst hmembers

end SqlFragments.Logic
