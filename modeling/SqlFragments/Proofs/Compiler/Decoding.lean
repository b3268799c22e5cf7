import Mathlib.Logic.Relation
import SqlFragments.Proofs.Compiler.Scanning

/-!
# What a command says of its tree

A sequence of leaves is cut at its values as a text is cut at its tokens.  Where no
literal brings a sigil or a leading digit of its own, the command of a tree is cut at
the tokens exactly where the leaves are cut at the values.  So the command and the
bindings determine the tree, up to what no command can show: the nesting, empty
literals and the borders between neighbouring literals.

Main results:

- `alike_iff_cut_eq`: leaves are cut alike exactly when they differ by empty and by
  divided literals.
- `scan_textFrom`: the text of leaves is cut where the leaves are cut.
- `command_identifies_bindings`: the tokens of a command are those of its bindings.
-/

namespace SqlFragments

/-! ## Leaves cut at their values -/

namespace Leaf

/-- Leaves cut at their values, neighbouring literals being one text. -/
def cut : List Leaf → Cut Value
  | [] => ⟨[], []⟩
  | .literal code :: rest => (cut rest).prepend code.toList
  | .value v :: rest => (cut rest).mark v

/-- The leaves of a cut: one literal, and one after each value. -/
def ofCut (found : Cut Value) : List Leaf :=
  .literal (String.ofList found.before) ::
    found.marks.flatMap fun (v, after) => [.value v, .literal (String.ofList after)]

/-- One step between leaves that no command tells apart. -/
inductive Merge : List Leaf → List Leaf → Prop where
  /-- An empty literal is dropped. -/
  | empty (before after : List Leaf) : Merge (before ++ .literal "" :: after) (before ++ after)
  /-- Two neighbouring literals are made one. -/
  | neighbours (before after : List Leaf) (code other : String) :
    Merge (before ++ .literal code :: .literal other :: after)
      (before ++ .literal (code ++ other) :: after)

/-- Leaves are alike when they differ by empty literals and by the borders between
neighbouring literals only. -/
def Alike : List Leaf → List Leaf → Prop := Relation.EqvGen Merge

/-- The marks of the cut are the values of the leaves. -/
theorem names_cut (leaves : List Leaf) : (cut leaves).names = values leaves := by
  induction leaves with
  | nil => rfl
  | cons leaf rest ih =>
    cases leaf with
    | literal code =>
      rw [cut, Cut.names_prepend, ih]
      rfl
    | value v =>
      rw [cut, Cut.names_mark, ih]
      rfl

/-- Trees that are the same up to merging stay so behind a common leaf. -/
theorem Merge.cons {leaves others : List Leaf} (h : Merge leaves others) (leaf : Leaf) :
    Merge (leaf :: leaves) (leaf :: others) := by
  cases h with
  | empty before after => exact .empty (leaf :: before) after
  | neighbours before after code other => exact .neighbours (leaf :: before) after code other

/-- Trees that are alike stay so behind a common leaf. -/
theorem Alike.cons {leaves others : List Leaf} (h : Alike leaves others) (leaf : Leaf) :
    Alike (leaf :: leaves) (leaf :: others) := by
  induction h with
  | rel leaves others h => exact .rel _ _ (h.cons leaf)
  | refl leaves => exact .refl _
  | symm leaves others _ ih => exact .symm _ _ ih
  | trans leaves middle others _ _ ihleft ihright => exact .trans _ _ _ ihleft ihright

/-- Leaves are alike to those of their cut. -/
theorem alike_ofCut_cut (leaves : List Leaf) : Alike leaves (ofCut (cut leaves)) := by
  induction leaves with
  | nil => exact .symm _ _ (.rel _ _ (.empty [] []))
  | cons leaf rest ih =>
    have hrest : Alike (leaf :: rest) (leaf :: ofCut (cut rest)) := ih.cons leaf
    apply Relation.EqvGen.trans _ _ _ hrest
    cases leaf with
    | literal code =>
      have hmerge := Merge.neighbours [] ((cut rest).marks.flatMap fun (v, after) =>
        [.value v, .literal (String.ofList after)]) code (String.ofList (cut rest).before)
      apply Relation.EqvGen.rel
      simpa [ofCut, cut, Cut.prepend, String.ofList_append] using hmerge
    | value v =>
      have hempty := Merge.empty [] (.value v :: ofCut (cut rest))
      apply Relation.EqvGen.symm
      apply Relation.EqvGen.rel
      simpa [ofCut, cut, Cut.mark] using hempty

/-- Trees that are cut alike stay so behind common leaves. -/
theorem cut_append_congr {leaves others : List Leaf} (h : cut leaves = cut others)
    (before : List Leaf) : cut (before ++ leaves) = cut (before ++ others) := by
  induction before with
  | nil => exact h
  | cons leaf before ih => cases leaf <;> simp [cut, ih]

/-- Merging literals does not change the cut. -/
theorem cut_eq_of_merge {leaves others : List Leaf} (h : Merge leaves others) :
    cut leaves = cut others := by
  cases h with
  | empty before after => exact cut_append_congr (by simp [cut, Cut.prepend]) before
  | neighbours before after code other =>
    exact cut_append_congr (by simp [cut, Cut.prepend, List.append_assoc]) before

/-- Leaves are alike exactly when they are cut alike. -/
theorem alike_iff_cut_eq (leaves others : List Leaf) :
    Alike leaves others ↔ cut leaves = cut others := by
  constructor
  · intro h
    induction h with
    | rel leaves others h => exact cut_eq_of_merge h
    | refl leaves => rfl
    | symm leaves others _ ih => exact ih.symm
    | trans leaves middle others _ _ ihleft ihright => exact ihleft.trans ihright
  · intro h
    have hothers := (alike_ofCut_cut others).symm
    rw [← h] at hothers
    exact .trans _ _ _ (alike_ofCut_cut leaves) hothers

/-- Leaves that are alike have one text. -/
theorem textFrom_of_alike {leaves others : List Leaf} (h : Alike leaves others)
    (placeholder : Placeholder) (start : Nat) :
    textFrom placeholder start leaves = textFrom placeholder start others := by
  induction h with
  | rel leaves others h =>
    cases h with
    | empty before after => simp [textFrom_append, textFrom_cons, text]
    | neighbours before after code other =>
      simp [textFrom_append, textFrom_cons, text, String.append_assoc]
  | refl leaves => rfl
  | symm leaves others _ ih => exact ih.symm
  | trans leaves middle others _ _ ihleft ihright => exact ihleft.trans ihright

/-! ## The text of leaves, cut at its tokens -/

/-- No literal has the first character of a sigil, and none starts with a digit. -/
def AreClearOf (sigil : List Char) (leaves : List Leaf) : Prop :=
  ∀ code, .literal code ∈ leaves →
    (∀ s ∈ sigil.head?, s ∉ code.toList) ∧ ∀ c ∈ code.toList.head?, c.isDigit = false

/-- Clear leaves are clear without the first of them. -/
theorem AreClearOf.tail {sigil : List Char} {leaf : Leaf} {rest : List Leaf}
    (h : AreClearOf sigil (leaf :: rest)) : AreClearOf sigil rest :=
  fun code hcode => h code (List.mem_cons_of_mem leaf hcode)

end Leaf

namespace Placeholder

/-- A sigil has a first character, which is no digit, and it has no blanks. -/
theorem sigil_shape {p : Placeholder} {sigil : List Char} (h : p.sigil = some sigil) :
    (∃ s others, sigil = s :: others ∧ s.isDigit = false) ∧
      ∀ s ∈ sigil, Text.isBlank s = false := by
  cases p with
  | questionMark => cases h
  | dollar =>
    obtain rfl := Option.some.inj h
    exact ⟨⟨_, _, rfl, by decide⟩, List.forall_mem_singleton.mpr (by decide)⟩
  | colon =>
    obtain rfl := Option.some.inj h
    exact ⟨⟨_, _, rfl, by decide⟩, List.forall_mem_singleton.mpr (by decide)⟩
  | atP =>
    obtain rfl := Option.some.inj h
    exact ⟨⟨_, _, rfl, by decide⟩,
      List.forall_mem_cons.mpr ⟨by decide, List.forall_mem_singleton.mpr (by decide)⟩⟩
  | custom name => cases h

/-- A number is written in digits. -/
theorem isDigit_of_mem_decimal {n : Nat} {c : Char} (h : c ∈ Number.decimal n) :
    c.isDigit = true := by
  rcases List.mem_map.mp h with ⟨d, hd, rfl⟩
  have hall : ∀ d : Fin 10, (Number.digitChar d.val).isDigit = true := by decide
  exact hall ⟨d, Number.lt_ten_of_mem_digits hd⟩

/-- A number is written in at least one digit. -/
theorem decimal_ne_nil (n : Nat) : Number.decimal n ≠ [] := by
  simp [Number.decimal, Number.writeDigits, Number.digits_ne_nil]

/-- A placeholder of a built-in style is a mark, and no letter but `p` or digits after it. -/
theorem exists_token_eq {p : Placeholder} (hp : ∀ name, p ≠ .custom name) (index : Nat) :
    ∃ mark rest, (p.token index).toList = mark :: rest ∧ mark ∈ ['?', '$', ':', '@'] ∧
      ∀ c ∈ rest, c = 'p' ∨ c.isDigit = true := by
  have hdecimal : ∀ c ∈ Number.decimal (index + 1), c = 'p' ∨ c.isDigit = true :=
    fun c hc => Or.inr (isDigit_of_mem_decimal hc)
  cases p with
  | questionMark => exact ⟨'?', [], by rw [token]; rfl, by decide, by simp⟩
  | dollar =>
    have htoken := token_numbered (p := .dollar) rfl index
    exact ⟨'$', _, htoken, by decide, hdecimal⟩
  | colon =>
    have htoken := token_numbered (p := .colon) rfl index
    exact ⟨':', _, htoken, by decide, hdecimal⟩
  | atP =>
    have htoken := token_numbered (p := .atP) rfl index
    exact ⟨'@', _, htoken, by decide, List.forall_mem_cons.mpr ⟨Or.inl rfl, hdecimal⟩⟩
  | custom name => exact absurd rfl (hp name)

/-- The text of leaves does not start with a digit. -/
theorem head_textFrom {p : Placeholder} {sigil : List Char} (hsigil : p.sigil = some sigil)
    {leaves : List Leaf} (hclear : Leaf.AreClearOf sigil leaves) (start : Nat) :
    ∀ c ∈ (Leaf.textFrom p start leaves).toList.head?, c.isDigit = false := by
  induction leaves generalizing start with
  | nil => simp
  | cons leaf rest ih =>
    rw [Leaf.textFrom_cons, String.toList_append]
    cases leaf with
    | literal code =>
      cases hcode : code.toList with
      | nil =>
        rw [Leaf.text, hcode]
        exact ih hclear.tail (start + Leaf.count [.literal code])
      | cons d others =>
        rw [Leaf.text, hcode, List.cons_append, List.head?_cons]
        have hfirst := (hclear code (by simp)).2
        rwa [hcode, List.head?_cons] at hfirst
    | value v =>
      rcases sigil_shape hsigil with ⟨⟨s, others, rfl, hs⟩, _⟩
      intro c hc
      rw [Leaf.text, token_numbered hsigil] at hc
      simp only [List.cons_append, List.head?_cons, Option.mem_def, Option.some.injEq] at hc
      rw [← hc]
      exact hs

/-- The text of leaves is cut at its tokens where the leaves are cut at their values. -/
theorem scan_textFrom {p : Placeholder} {sigil : List Char} (hsigil : p.sigil = some sigil)
    {leaves : List Leaf} (hclear : Leaf.AreClearOf sigil leaves) (start : Nat) :
    scan sigil (Leaf.textFrom p start leaves).toList =
      (Leaf.cut leaves).rename fun i => (p.token (start + i)).toList := by
  induction leaves generalizing start with
  | nil => rw [Leaf.textFrom_nil, String.toList_empty, scan_nil]; rfl
  | cons leaf rest ih =>
    have hrest := ih hclear.tail
    rw [Leaf.textFrom_cons, String.toList_append]
    cases leaf with
    | literal code =>
      rcases sigil_shape hsigil with ⟨⟨s, others, rfl, _⟩, _⟩
      have hcode : s ∉ code.toList := (hclear code (by simp)).1 s (by simp)
      rw [Leaf.text, scan_append_of_notMem hcode, hrest, Leaf.count_literal, Leaf.cut,
        Cut.rename_prepend]
      rfl
    | value v =>
      have hdigits : ∀ d ∈ Number.decimal (start + 1), d.isDigit = true :=
        fun d hd => isDigit_of_mem_decimal hd
      have hhead := head_textFrom hsigil hclear.tail (start + 1)
      have hnext : (fun i => (p.token (start + 1 + i)).toList) =
          fun i => (p.token (start + (i + 1))).toList := by
        funext i
        rw [Nat.add_assoc, Nat.add_comm 1 i]
      rw [Leaf.text, token_numbered hsigil, Leaf.count_value,
        scan_token (decimal_ne_nil _) hdigits hhead, hrest, Leaf.cut, Cut.rename_mark, hnext,
        Nat.add_zero, token_numbered hsigil]

end Placeholder

/-! ## Commands -/

namespace Compiler

/-- Without a function at the end, a command is the text of the leaves or that text with
its blanks collapsed. -/
theorem command_eq {c : Compiler} (hpost : c.postProcess = none) (q : Query) :
    (c.compile q).command =
      if c.normalizesBlanks then Text.collapseBlanks (Leaf.textFrom c.placeholder 0 q.leaves)
      else Leaf.textFrom c.placeholder 0 q.leaves := by
  rw [compile_query]
  simp [finish, hpost]

/-- The bindings of a command are the marks of the cut. -/
theorem bindings_eq (c : Compiler) (q : Query) :
    (c.compile q).bindings = (Leaf.cut q.leaves).names := by
  rw [compile_query, Leaf.names_cut]

/-- The command of a tree is cut at its tokens where the leaves are cut at their values. -/
theorem scan_command {c : Compiler} {sigil : List Char}
    (hsigil : c.placeholder.sigil = some sigil) (hpost : c.postProcess = none)
    (hblanks : c.normalizesBlanks = false) {q : Query} (hclear : Leaf.AreClearOf sigil q.leaves) :
    Placeholder.scan sigil (c.compile q).command.toList =
      (Leaf.cut q.leaves).rename fun i => (c.placeholder.token i).toList := by
  rw [command_eq hpost, hblanks, if_neg Bool.false_ne_true,
    Placeholder.scan_textFrom hsigil hclear]
  simp only [Nat.zero_add]

/-- The tokens of a command are those of its bindings, with blanks collapsed or not. -/
theorem tokens_command {c : Compiler} {sigil : List Char}
    (hsigil : c.placeholder.sigil = some sigil) (hpost : c.postProcess = none) {q : Query}
    (hclear : Leaf.AreClearOf sigil q.leaves) :
    Placeholder.tokens sigil (c.compile q).command.toList =
      (List.range (c.compile q).bindings.length).map fun i => (c.placeholder.token i).toList := by
  have htext : Placeholder.tokens sigil (Leaf.textFrom c.placeholder 0 q.leaves).toList =
      (List.range (c.compile q).bindings.length).map fun i => (c.placeholder.token i).toList := by
    rw [Placeholder.tokens, Placeholder.scan_textFrom hsigil hclear, Cut.names_rename, bindings_eq]
    simp only [Nat.zero_add]
  rcases Placeholder.sigil_shape hsigil with ⟨⟨s, others, rfl, _⟩, hplain⟩
  rw [command_eq hpost]
  split
  · rw [Placeholder.tokens_collapse (List.cons_ne_nil s others) hplain]
    exact htext
  · exact htext

/-- Trees with the same command and the same bindings have leaves that are alike. -/
theorem compile_eq_iff_alike {c : Compiler} {sigil : List Char}
    (hsigil : c.placeholder.sigil = some sigil) (hpost : c.postProcess = none)
    (hblanks : c.normalizesBlanks = false) {q r : Query}
    (hq : Leaf.AreClearOf sigil q.leaves) (hr : Leaf.AreClearOf sigil r.leaves) :
    c.compile q = c.compile r ↔ Leaf.Alike q.leaves r.leaves := by
  constructor
  · intro h
    have hscan := scan_command hsigil hpost hblanks hq
    rw [h, scan_command hsigil hpost hblanks hr] at hscan
    rw [Leaf.alike_iff_cut_eq]
    apply Cut.ext_of_names
    · have hbefore := congrArg Cut.before hscan.symm
      exact hbefore
    · rw [← bindings_eq, ← bindings_eq, h]
    · have htexts := congrArg Cut.texts hscan.symm
      rwa [Cut.texts_rename, Cut.texts_rename] at htexts
  · intro h
    have hcut := (Leaf.alike_iff_cut_eq _ _).mp h
    rw [compile_query, compile_query, Leaf.textFrom_of_alike h, ← Leaf.names_cut, hcut,
      Leaf.names_cut]

/-- A text of leaves has as many question marks as values, if no literal has one. -/
theorem count_questionMark_textFrom {leaves : List Leaf}
    (hclear : ∀ code, .literal code ∈ leaves → '?' ∉ code.toList) (start : Nat) :
    (Leaf.textFrom .questionMark start leaves).toList.count '?' = Leaf.count leaves := by
  induction leaves generalizing start with
  | nil => rfl
  | cons leaf rest ih =>
    have hrest := ih fun code hcode => hclear code (List.mem_cons_of_mem leaf hcode)
    rw [Leaf.textFrom_cons, String.toList_append, List.count_append, hrest, Leaf.count_cons leaf]
    congr 1
    cases leaf with
    | literal code => exact List.count_eq_zero.mpr (hclear code (by simp))
    | value v =>
      rw [Leaf.text, Placeholder.token, Leaf.count_value]
      decide

/-- Collapsing blanks keeps every character that is none. -/
theorem count_collapse {c : Char} (hc : Text.isBlank c = false) (text : String) :
    (Text.collapseBlanks text).toList.count c = text.toList.count c := by
  have hblank : ∀ (before : List Char) (d : Char) (rest : List Char), Text.isBlank d = true →
      (before ++ d :: rest).filter (· == c) = before.filter (· == c) ++ rest.filter (· == c) := by
    intro before d rest hd
    have hne : d ≠ c := by
      rintro rfl
      simp [hc] at hd
    simp [hne]
  have hfilter := Text.eq_of_spaced (List.filter (· == c)) rfl hblank text.toList
  rw [Text.toList_collapseBlanks, List.count_eq_length_filter,
    List.count_eq_length_filter, hfilter]

/-- A command says which binding goes where.  In a numbered style, if no literal has the
first character of the sigil or starts with a digit, the tokens of the command are those
of its bindings, in order; with blanks kept, the text is divided by them as the literals
are by the values, and two such trees compile alike exactly when their leaves are alike.
With question marks, if no literal has one, there are as many as there are bindings. -/
theorem command_identifies_bindings (c : Compiler) (hpost : c.postProcess = none) (q : Query) :
    (∀ sigil, c.placeholder.sigil = some sigil → Leaf.AreClearOf sigil q.leaves →
      Placeholder.tokens sigil (c.compile q).command.toList =
          (List.range (c.compile q).bindings.length).map
            (fun i => sigil ++ Number.decimal (i + 1)) ∧
        (c.normalizesBlanks = false →
          Placeholder.scan sigil (c.compile q).command.toList =
              (Leaf.cut q.leaves).rename (fun i => sigil ++ Number.decimal (i + 1)) ∧
            ∀ r : Query, Leaf.AreClearOf sigil r.leaves →
              (c.compile q = c.compile r ↔ Leaf.Alike q.leaves r.leaves))) ∧
    (c.placeholder = .questionMark → (∀ code, .literal code ∈ q.leaves → '?' ∉ code.toList) →
      (c.compile q).command.toList.count '?' = (c.compile q).bindings.length) := by
  constructor
  · intro sigil hsigil hclear
    have htoken : (fun i => sigil ++ Number.decimal (i + 1)) =
        fun i => (c.placeholder.token i).toList :=
      funext fun i => (Placeholder.token_numbered hsigil i).symm
    rw [htoken]
    constructor
    · exact tokens_command hsigil hpost hclear
    · intro hblanks
      constructor
      · exact scan_command hsigil hpost hblanks hclear
      · intro r hr
        exact compile_eq_iff_alike hsigil hpost hblanks hclear hr
  · intro hmark hclear
    have hcount := count_questionMark_textFrom hclear 0
    have hlength : (c.compile q).bindings.length = Leaf.count q.leaves := by
      rw [bindings_eq, Leaf.names_cut]
      rfl
    rw [command_eq hpost, hmark, hlength]
    split
    · rw [count_collapse (by decide), hcount]
    · exact hcount

/-- Two neighbouring values in a subtree, before code that starts with a blank. -/
theorem command_identifies_bindings_neighbours :
    (⟨.atP, true, none⟩ : Compiler).postProcess = none ∧
      Leaf.AreClearOf ['@', 'p']
        [.literal "a=", .value .null, .value (.bool true), .literal "\t2"] ∧
      Placeholder.tokens ['@', 'p'] ((⟨.atP, true, none⟩ : Compiler).compile
          (Query.mk [.literal "a=", .subtree [.value .null, .value (.bool true)],
            .literal "\t2"])).command.toList =
        [['@', 'p'] ++ Number.decimal 1, ['@', 'p'] ++ Number.decimal 2] := by
  have hclear : Leaf.AreClearOf ['@', 'p']
      [.literal "a=", .value .null, .value (.bool true), .literal "\t2"] := by
    intro code hcode
    simp only [List.mem_cons, Leaf.literal.injEq, reduceCtorEq, List.not_mem_nil, or_false,
      false_or] at hcode
    have hat : ∀ s ∈ ['@', 'p'].head?, s = '@' := fun s hs => (Option.some.inj hs).symm
    rcases hcode with rfl | rfl
    all_goals
      refine ⟨fun s hs => ?_, fun c hc => ?_⟩
      · rw [hat s hs]
        decide
      · obtain rfl := Option.some.inj hc
        decide
  exact ⟨rfl, hclear,
    ((command_identifies_bindings ⟨.atP, true, none⟩ rfl (Query.mk [.literal "a=",
      .subtree [.value .null, .value (.bool true)], .literal "\t2"])).1 _ rfl hclear).1⟩

end Compiler

end SqlFragments
