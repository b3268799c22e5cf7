import Mathlib.Data.List.TakeWhile
import SqlFragments.Template.Expand

/-!
# Faults of an expansion

An expansion looks for faults in a fixed order.  The syntax of the template comes first,
then the number of holes that take arguments, then the expressions in holes from left to
right.  Counting the holes and taking the arguments are two passes over the pieces; they
agree, so an argument is never missing and none is left.

Main results:

- `isOutcome_assign`: with as many arguments as holes that take them, the fault is the leftmost
  expression that cannot be read; without one each piece has its append, and no argument is
  left.
- `expand_syntactic_iff`, `expand_holeCount_iff`: when the syntax and the two numbers are at
  fault.
- `message_holeCount_inj`: the text of a wrong number of arguments states both numbers.
- `expand_faults_in_order`: which fault an expansion has, and what it gives without one.
-/

namespace SqlFragments.Template

/-! ## What the pieces ask for -/

/-- The expression in a hole that holds one. -/
def Part.expression? : Part → Option (List Char)
  | .inline expression => some expression
  | _ => none

/-- The append that a piece asks for, with `before` holes that take arguments in front. -/
def Part.append? {ε : Type} (read : List Char → Option ε) (args : List ε) (before : Nat) :
    Part → Option (Append ε)
  | .code text => some (.code text)
  | .inline expression => (read expression).map .arg
  | .positional => args[before]?.map .arg

section

variable {ε : Type} (read : List Char → Option ε)

/-- The leftmost expression in a hole that cannot be read. -/
def firstUnreadable (parts : List Part) : Option (List Char) :=
  (parts.filterMap Part.expression?).find? fun expression => (read expression).isNone

/-- The appends that the pieces of a template ask for, one for each piece. -/
def appendsFor (parts : List Part) (args : List ε) : List (Option (Append ε)) :=
  parts.mapIdx fun i part => part.append? read args ((parts.take i).countP Part.isPositional)

/-- An expression is the first unreadable one when it is unreadable, and else it is passed over. -/
theorem firstUnreadable_inline (expression : List Char) (parts : List Part) :
    firstUnreadable read (.inline expression :: parts) =
      if (read expression).isNone then some expression else firstUnreadable read parts := by
  rw [firstUnreadable, List.filterMap_cons_some (by rfl), List.find?_cons]
  cases read expression <;> rfl

/-- A piece that takes no argument leaves all of them to the pieces after it. -/
theorem appendsFor_cons {part : Part} (h : part.isPositional = false) (parts : List Part)
    (args : List ε) :
    appendsFor read (part :: parts) args =
      part.append? read args 0 :: appendsFor read parts args := by
  simp [appendsFor, List.mapIdx_cons, h]

/-- A hole without an expression takes the first argument. -/
theorem appendsFor_positional (parts : List Part) (arg : ε) (args : List ε) :
    appendsFor read (.positional :: parts) (arg :: args) =
      some (.arg arg) :: appendsFor read parts args := by
  have hpositional : Part.isPositional .positional = true := rfl
  simp [appendsFor, List.mapIdx_cons, hpositional, Part.append?]

end

/-! ## Taking the arguments -/

/-- The appends of the holes that take arguments, in order. -/
def taken {ε : Type} (parts : List Part) (appends : List (Append ε)) : List (Append ε) :=
  ((parts.zip appends).filter fun pair => pair.1.isPositional).map Prod.snd

/-- What pieces and arguments have to come to.  The fault is the leftmost expression that
cannot be read.  Without one each piece has the append that it asks for, and the holes that
take arguments have taken them all. -/
def IsOutcome {ε : Type} (read : List Char → Option ε) (parts : List Part) (args : List ε) :
    Except Fault (List (Append ε)) → Prop
  | .error fault =>
    ∃ expression, firstUnreadable read parts = some expression ∧
      fault = .invalidExpression expression
  | .ok appends =>
    firstUnreadable read parts = none ∧ appendsFor read parts args = appends.map some ∧
      taken parts appends = args.map .arg

section

variable {ε : Type} {read : List Char → Option ε} {parts : List Part} {args : List ε}

/-- A piece in front whose append is known adds it to the outcome of the others.  The
arguments that are left for the others are those that the piece does not take. -/
theorem IsOutcome.cons {part : Part} {append : Append ε} {left : List ε}
    {result : Except Fault (List (Append ε))}
    (hread : firstUnreadable read (part :: parts) = firstUnreadable read parts)
    (hasked : appendsFor read (part :: parts) args = some append :: appendsFor read parts left)
    (htaken : args.map .arg = taken [part] [append] ++ left.map .arg)
    (h : IsOutcome read parts left result) :
    IsOutcome read (part :: parts) args (result.map (append :: ·)) := by
  cases result with
  | error fault =>
    rcases h with ⟨expression, hfirst, hfault⟩
    exact ⟨expression, hread.trans hfirst, hfault⟩
  | ok appends =>
    rcases h with ⟨hnone, hothers, hall⟩
    refine ⟨hread.trans hnone, ?_, ?_⟩
    · rw [hasked, hothers]
      rfl
    · rw [htaken, ← hall]
      cases hpositional : part.isPositional <;> simp [taken, hpositional]

/-- With as many arguments as holes that take them, going through the pieces comes to what
it has to. -/
theorem isOutcome_assign (hcount : parts.countP Part.isPositional = args.length) :
    IsOutcome read parts args (assign read parts args) := by
  -- The arguments that are left stay as many as the holes that are left to take them.
  fun_induction assign read parts args with
  | case1 args =>
    have hargs : args = [] := List.eq_nil_of_length_eq_zero hcount.symm
    rw [hargs]
    exact ⟨rfl, rfl, rfl⟩
  | case2 text parts args ih =>
    have hcode : Part.isPositional (.code text) = false := rfl
    exact (ih (by simpa [hcode] using hcount)).cons rfl (appendsFor_cons read hcode parts args) rfl
  | case3 expression parts args e hread ih =>
    have hinline : Part.isPositional (.inline expression) = false := rfl
    have hasked := appendsFor_cons read hinline parts args
    rw [Part.append?, hread] at hasked
    apply (ih (by simpa [hinline] using hcount)).cons _ hasked rfl
    rw [firstUnreadable_inline, hread]
    rfl
  | case4 expression parts args hread =>
    refine ⟨expression, ?_, rfl⟩
    rw [firstUnreadable_inline, hread]
    rfl
  | case5 parts arg args ih =>
    have hpositional : Part.isPositional .positional = true := rfl
    have hleft : parts.countP Part.isPositional = args.length := by
      simpa [List.countP_cons, hpositional] using hcount
    exact (ih hleft).cons rfl (appendsFor_positional read parts arg args) rfl
  | case6 parts => simp [List.countP_cons, Part.isPositional] at hcount

/-- The only fault that the pieces can have is an expression that cannot be read. -/
theorem IsOutcome.ne_error {result : Except Fault (List (Append ε))} {fault : Fault}
    (h : IsOutcome read parts args result)
    (hfault : ∀ expression, fault ≠ .invalidExpression expression) : result ≠ .error fault := by
  rintro rfl
  rcases h with ⟨expression, _, heq⟩
  exact hfault expression heq

/-- The outcome names an expression exactly when it is the first unreadable one. -/
theorem IsOutcome.error_iff {result : Except Fault (List (Append ε))}
    (h : IsOutcome read parts args result) (expression : List Char) :
    result = .error (.invalidExpression expression) ↔
      firstUnreadable read parts = some expression := by
  cases result with
  | error fault =>
    rcases h with ⟨unread, hfirst, rfl⟩
    simp [hfirst]
  | ok appends => simp [h.1]

/-- The outcome is a list of appends exactly when no expression is unreadable. -/
theorem IsOutcome.exists_ok_iff {result : Except Fault (List (Append ε))}
    (h : IsOutcome read parts args result) :
    (∃ appends, result = .ok appends) ↔ firstUnreadable read parts = none := by
  cases result with
  | error fault =>
    rcases h with ⟨unread, hfirst, rfl⟩
    simp [hfirst]
  | ok appends => simp [h.1]

end

/-! ## Expansions -/

section

variable {ε : Type} {read : List Char → Option ε} {template : String} {parts : List Part}
  {args : List ε}

/-- With another number of arguments than of holes that take them, both numbers are given. -/
theorem expand_of_count_ne (hparse : parse template = .ok parts)
    (hcount : parts.countP Part.isPositional ≠ args.length) :
    expand read template args =
      .error (.holeCount (parts.countP Part.isPositional) args.length) := by
  rw [expand, hparse]
  exact if_neg hcount

/-- With as many arguments as holes that take them, the pieces decide. -/
theorem isOutcome_expand (hparse : parse template = .ok parts)
    (hcount : parts.countP Part.isPositional = args.length) :
    IsOutcome read parts args (expand read template args) := by
  have hexpand : expand read template args = assign read parts args := by
    rw [expand, hparse]
    exact if_pos hcount
  rw [hexpand]
  exact isOutcome_assign hcount

/-- Only a text that is no template has a fault in its syntax. -/
theorem expand_syntactic_iff (fault : Part.Fault) :
    expand read template args = .error (.syntactic fault) ↔ parse template = .error fault := by
  cases hparse : parse template with
  | error found => simp [expand, hparse]
  | ok parts =>
    by_cases hcount : parts.countP Part.isPositional = args.length
    · have hne : expand read template args ≠ .error (.syntactic fault) :=
        (isOutcome_expand hparse hcount).ne_error (by simp)
      simp [hne]
    · simp [expand_of_count_ne hparse hcount]

/-- The two numbers are given exactly when they differ. -/
theorem expand_holeCount_iff (hparse : parse template = .ok parts) (holes given : Nat) :
    expand read template args = .error (.holeCount holes given) ↔
      holes = parts.countP Part.isPositional ∧ given = args.length ∧ holes ≠ given := by
  constructor
  · intro h
    by_cases hcount : parts.countP Part.isPositional = args.length
    · exact absurd h ((isOutcome_expand hparse hcount).ne_error (by simp))
    · rw [expand_of_count_ne hparse hcount] at h
      rcases Fault.holeCount.inj (Except.error.inj h) with ⟨rfl, rfl⟩
      exact ⟨rfl, rfl, hcount⟩
  · rintro ⟨rfl, rfl, hcount⟩
    exact expand_of_count_ne hparse hcount

/-- The holes are counted before the arguments are taken, so none is ever missing. -/
theorem expand_ne_missingArgument :
    expand read template args ≠ .error .missingArgument := by
  cases hparse : parse template with
  | error found => simp [expand, hparse]
  | ok parts =>
    by_cases hcount : parts.countP Part.isPositional = args.length
    · exact (isOutcome_expand hparse hcount).ne_error (by simp)
    · simp [expand_of_count_ne hparse hcount]

end

/-! ## Numbers in the text of a fault -/

/-- A number and the text after it are known from the two together, if the text does not
start with a digit. -/
theorem repr_append_inj {m n : Nat} {after rest : List Char}
    (hafter : ∀ c ∈ after.head?, c.isDigit = false) (hrest : ∀ c ∈ rest.head?, c.isDigit = false)
    (h : m.repr.toList ++ after = n.repr.toList ++ rest) : m = n ∧ after = rest := by
  have hdigits : ∀ k : Nat, ∀ c ∈ k.repr.toList, c.isDigit = true := by
    intro k c hc
    rw [Nat.toList_repr] at hc
    exact Nat.isDigit_of_mem_toDigits (by decide) (by decide) hc
  have hsplit : ∀ (k : Nat) {text : List Char}, (∀ c ∈ text.head?, c.isDigit = false) →
      (k.repr.toList ++ text).takeWhile Char.isDigit = k.repr.toList ∧
        (k.repr.toList ++ text).dropWhile Char.isDigit = text := by
    intro k text htext
    rw [List.takeWhile_append_of_pos (hdigits k), List.dropWhile_append_of_pos (hdigits k)]
    cases text with
    | nil => simp
    | cons c text => simp [htext c rfl]
  have hm := hsplit m hafter
  have hn := hsplit n hrest
  rw [h] at hm
  constructor
  · have hsame : m.repr.toList = n.repr.toList := hm.1.symm.trans hn.1
    rw [Nat.toList_repr, Nat.toList_repr] at hsame
    rw [← Nat.ofDigitChars_ten_toDigits (n := m), hsame, Nat.ofDigitChars_ten_toDigits]
  · exact hm.2.symm.trans hn.2

/-- The text of a wrong number of arguments states both numbers: no other numbers share
it. -/
theorem message_holeCount_inj {holes given others more : Nat}
    (h : (Fault.holeCount holes given).message = (Fault.holeCount others more).message) :
    holes = others ∧ given = more := by
  have htext : ∀ m n, (Fault.holeCount m n).message.toList = "template has ".toList ++
      (m.repr.toList ++ (" `\x7b\x7d` hole(s) but ".toList ++
        (n.repr.toList ++ " argument(s) were given".toList))) := by
    intro m n
    have hmessage : (Fault.holeCount m n).message = "template has " ++ m.repr ++
        " `\x7b\x7d` hole(s) but " ++ n.repr ++ " argument(s) were given" := rfl
    rw [hmessage]
    simp only [String.toList_append, List.append_assoc]
  have hlist := congrArg String.toList h
  rw [htext, htext] at hlist
  rcases repr_append_inj (by simp) (by simp) (List.append_cancel_left hlist) with ⟨hholes, hrest⟩
  rcases repr_append_inj (by simp) (by simp) (List.append_cancel_left hrest) with ⟨hgiven, _⟩
  exact ⟨hholes, hgiven⟩

/-- An expansion has one fault at most, and a fixed order says which.  A text that is no
template is reported first, then a number of arguments other than that of the holes that
take them, with both numbers in its text, then the leftmost expression that cannot be read.
Without any of these there is one append for each piece, as it asks, and all arguments are
taken in order.  An argument is never missing. -/
theorem expand_faults_in_order {ε : Type} (read : List Char → Option ε) (template : String)
    (args : List ε) :
    (∀ fault, expand read template args = .error (.syntactic fault) ↔
      parse template = .error fault) ∧
    (∀ parts, parse template = .ok parts →
      (∀ holes given, expand read template args = .error (.holeCount holes given) ↔
        holes = parts.countP Part.isPositional ∧ given = args.length ∧ holes ≠ given) ∧
      (parts.countP Part.isPositional = args.length →
        (∀ expression, expand read template args = .error (.invalidExpression expression) ↔
          firstUnreadable read parts = some expression) ∧
        ((∃ appends, expand read template args = .ok appends) ↔
          firstUnreadable read parts = none) ∧
        ∀ appends, expand read template args = .ok appends →
          appendsFor read parts args = appends.map some ∧
            taken parts appends = args.map .arg)) ∧
    expand read template args ≠ .error .missingArgument ∧
    ∀ holes given others more,
      (Fault.holeCount holes given).message = (Fault.holeCount others more).message →
      holes = others ∧ given = more := by
  refine ⟨expand_syntactic_iff, ?_, expand_ne_missingArgument,
    fun _ _ _ _ h => message_holeCount_inj h⟩
  intro parts hparse
  refine ⟨expand_holeCount_iff hparse, ?_⟩
  intro hcount
  have houtcome : IsOutcome read parts args (expand read template args) :=
    isOutcome_expand hparse hcount
  refine ⟨houtcome.error_iff, houtcome.exists_ok_iff, ?_⟩
  intro appends hexpand
  rw [hexpand] at houtcome
  exact houtcome.2

/-- One hole that takes an argument, between two expressions of which the second cannot be
read: with two arguments their number is the fault, and with one it is the expression. -/
theorem expand_faults_in_order_interleaved :
    let read : List Char → Option Nat := fun text => if text = ['a'] then some 7 else none
    parse "{a}{}{b}" = .ok [.inline ['a'], .positional, .inline ['b']] ∧
      expand read "{a}{}{b}" [1, 2] = .error (.holeCount 1 2) ∧
      [Part.inline ['a'], .positional, .inline ['b']].countP Part.isPositional = [1].length ∧
      expand read "{a}{}{b}" [1] = .error (.invalidExpression ['b']) := by
  intro read
  have hparse : parse "{a}{}{b}" = .ok [.inline ['a'], .positional, .inline ['b']] := by
    decide +kernel
  have htwo := ((expand_faults_in_order read "{a}{}{b}" [1, 2]).2.1 _ hparse).1 1 2
  have hone := ((expand_faults_in_order read "{a}{}{b}" [1]).2.1 _ hparse).2 rfl
  exact ⟨hparse, htwo.mpr ⟨rfl, rfl, by decide⟩, rfl, (hone.1 ['b']).mpr rfl⟩

end SqlFragments.Template
