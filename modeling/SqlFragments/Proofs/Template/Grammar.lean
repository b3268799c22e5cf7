import Mathlib.Data.List.Chain
import Mathlib.Data.List.Forall2
import SqlFragments.Proofs.Text.Spacing
import SqlFragments.Template.Part

/-!
# The grammar of templates

Which lists of pieces there are and how a list is written is said apart from the
reader.  Code is written with every brace doubled, a hole for an argument as blanks
between braces, and a hole with an expression as the expression between blanks and
braces.  The reader accepts the written forms of normal lists and nothing else, and
gives back the list that was written.

Main results:

- `balancedFrom_eq_true_iff`: balance is a matter of counting braces in prefixes.
- `readParts_sound`: pieces that are read are normal and were written so.
- `readParts_write`: normal pieces are read back.
- `parse_accepts_templates`: reading accepts exactly the grammar.
-/

namespace SqlFragments.Template

/-! ## Balanced braces -/

/-- Every brace that closes has one before it that opens, and none is left open. -/
def IsBalanced (text : List Char) : Prop :=
  (∀ before, before <+: text → before.count '}' ≤ before.count '{') ∧
    text.count '}' = text.count '{'

/-- What holds of every prefix holds of the empty one and of those that go on from the
first character. -/
theorem forall_prefix_cons {p : List Char → Prop} {c : Char} {rest : List Char} :
    (∀ before, before <+: c :: rest → p before) ↔
      p [] ∧ ∀ before, before <+: rest → p (c :: before) := by
  constructor
  · intro h
    refine ⟨h [] List.nil_prefix, ?_⟩
    intro before hbefore
    exact h _ (List.cons_prefix_cons.mpr ⟨rfl, hbefore⟩)
  · rintro ⟨hnil, hcons⟩ before hbefore
    rcases List.prefix_cons_iff.mp hbefore with rfl | ⟨others, rfl, hothers⟩
    · exact hnil
    · exact hcons others hothers

/-- Braces are balanced after `depth` open ones exactly when no prefix closes more than
are open and all are closed in the end. -/
theorem balancedFrom_eq_true_iff (depth : Nat) (text : List Char) :
    balancedFrom depth text = true ↔
      (∀ before, before <+: text → before.count '}' ≤ depth + before.count '{') ∧
        text.count '}' = depth + text.count '{' := by
  fun_induction balancedFrom depth text with
  | case1 depth =>
    simp only [List.prefix_nil, forall_eq, List.count_nil, beq_iff_eq]
    omega
  | case2 rest =>
    rw [forall_prefix_cons]
    simp only [Bool.false_eq_true, false_iff]
    rintro ⟨⟨_, h⟩, _⟩
    have hone := h [] List.nil_prefix
    simp at hone
  | case3 depth c rest hne ih =>
    rw [ih, forall_prefix_cons]
    by_cases hopen : c = '{'
    · subst hopen
      simp [Nat.add_assoc, Nat.add_comm 1]
    · by_cases hclose : c = '}'
      · subst hclose
        obtain ⟨d, rfl⟩ := Nat.exists_eq_succ_of_ne_zero fun hzero => hne hzero rfl
        have hstep : ∀ m n : Nat, m + 1 ≤ d + 1 + n ↔ m ≤ d + n := by omega
        have hend : ∀ m n : Nat, m + 1 = d + 1 + n ↔ m = d + n := by omega
        simp [hstep, hend]
      · simp [hopen, hclose]

/-- The reader of holes keeps track of what counting braces in prefixes says. -/
theorem balancedFrom_zero_iff (text : List Char) :
    balancedFrom 0 text = true ↔ IsBalanced text := by
  simp [balancedFrom_eq_true_iff, IsBalanced]

/-- A character that is no brace does not change the balance. -/
theorem balancedFrom_cons_of_ne {c : Char} (hopen : c ≠ '{') (hclose : c ≠ '}') (depth : Nat)
    (rest : List Char) : balancedFrom depth (c :: rest) = balancedFrom depth rest := by
  rw [balancedFrom]
  · simp [hopen, hclose]
  · intro _ heq
    exact hclose heq

/-- No brace is blank. -/
theorem ne_brace_of_isBlank {c : Char} (h : Text.isBlank c = true) : c ≠ '{' ∧ c ≠ '}' := by
  constructor
  · rintro rfl
    exact absurd h (by decide)
  · rintro rfl
    exact absurd h (by decide)

/-- Blanks in front do not change the balance. -/
theorem balancedFrom_blanks {blanks : List Char} (h : ∀ c ∈ blanks, Text.isBlank c = true)
    (depth : Nat) (text : List Char) :
    balancedFrom depth (blanks ++ text) = balancedFrom depth text := by
  induction blanks with
  | nil => rfl
  | cons c rest ih =>
    obtain ⟨hopen, hclose⟩ := ne_brace_of_isBlank (h c (by simp))
    rw [List.cons_append, balancedFrom_cons_of_ne hopen hclose, ih fun d hd => h d (by simp [hd])]

/-- Blanks at the end do not change the balance. -/
theorem balancedFrom_append_blanks {blanks : List Char} (h : ∀ c ∈ blanks, Text.isBlank c = true)
    (depth : Nat) (text : List Char) :
    balancedFrom depth (text ++ blanks) = balancedFrom depth text := by
  fun_induction balancedFrom depth text with
  | case1 depth =>
    have hnil := balancedFrom_blanks h depth []
    rwa [List.append_nil] at hnil
  | case2 rest => rfl
  | case3 depth c rest hne ih =>
    rw [List.cons_append, balancedFrom]
    · exact ih
    · exact hne

/-- Blanks around a text do not change whether its braces are balanced. -/
theorem isBalanced_around_iff {before text after : List Char}
    (hbefore : ∀ c ∈ before, Text.isBlank c = true)
    (hafter : ∀ c ∈ after, Text.isBlank c = true) :
    IsBalanced (before ++ text ++ after) ↔ IsBalanced text := by
  rw [← balancedFrom_zero_iff, ← balancedFrom_zero_iff, balancedFrom_append_blanks hafter,
    balancedFrom_blanks hbefore]

/-- Blanks are balanced. -/
theorem isBalanced_of_blank {blanks : List Char} (h : ∀ c ∈ blanks, Text.isBlank c = true) :
    IsBalanced blanks := by
  have hnil := balancedFrom_blanks h 0 []
  rw [List.append_nil] at hnil
  exact (balancedFrom_zero_iff blanks).mp hnil

/-! ## Holes -/

/-- What is read as a hole has balanced braces and stood before a closing brace. -/
theorem readHole_sound {depth : Nat} {text hole after : List Char}
    (h : readHole depth text = some (hole, after)) :
    balancedFrom depth hole = true ∧ text = hole ++ '}' :: after := by
  fun_induction readHole depth text generalizing hole with
  | case1 => simp at h
  | case2 rest =>
    obtain ⟨rfl, rfl⟩ := Prod.mk.inj (Option.some.inj h)
    exact ⟨rfl, rfl⟩
  | case3 depth c rest hne inner =>
    rename_i ih
    obtain ⟨⟨found, remaining⟩, hinner, heq⟩ := Option.map_eq_some_iff.mp h
    obtain ⟨rfl, rfl⟩ := Prod.mk.inj heq
    obtain ⟨hbalanced, rfl⟩ := ih hinner
    refine ⟨?_, rfl⟩
    rw [balancedFrom]
    · exact hbalanced
    · exact hne

/-! ## Normal lists of pieces -/

/-- Whether a piece is code. -/
def Part.isCode : Part → Bool
  | .code _ => true
  | _ => false

/-- Code is not empty.  An expression is not empty, has no blanks at its ends, and its
braces are balanced. -/
def Part.IsNormal : Part → Prop
  | .code text => text ≠ []
  | .inline expression =>
    expression ≠ [] ∧ Text.IsTrimmed expression ∧ IsBalanced expression
  | .positional => True

/-- All pieces are normal, and no two pieces of code are adjacent. -/
def IsNormal (parts : List Part) : Prop :=
  (∀ part ∈ parts, part.IsNormal) ∧
    parts.IsChain fun part next => ¬(part.isCode = true ∧ next.isCode = true)

/-- Parts in normal form are so without the first of them. -/
theorem IsNormal.tail {part : Part} {parts : List Part} (h : IsNormal (part :: parts)) :
    IsNormal parts :=
  ⟨fun p hp => h.1 p (by simp [hp]), h.2.tail⟩

/-- Parts are in normal form when each is and no two pieces of code stand side by side. -/
theorem isNormal_cons_iff {part : Part} {parts : List Part} :
    IsNormal (part :: parts) ↔ part.IsNormal ∧ IsNormal parts ∧
      ∀ next ∈ parts.head?, ¬(part.isCode = true ∧ next.isCode = true) := by
  simp only [IsNormal, List.isChain_cons, List.forall_mem_cons]
  tauto

/-! ## Written forms -/

/-- Code as it is written: every brace is doubled. -/
def doubleBraces (text : List Char) : List Char :=
  text.flatMap fun c => if c = '{' ∨ c = '}' then [c, c] else [c]

/-- Code that was written with doubled braces: of two equal braces in a row one is left. -/
def singleBraces : List Char → List Char
  | '{' :: '{' :: rest => '{' :: singleBraces rest
  | '}' :: '}' :: rest => '}' :: singleBraces rest
  | c :: rest => c :: singleBraces rest
  | [] => []

/-- How a piece may be written.  Blanks may stand at both ends of a hole, and what follows
its opening brace is no second one. -/
inductive Part.Written : Part → List Char → Prop
  | code (text : List Char) : Written (.code text) (doubleBraces text)
  | positional {blanks : List Char} (hblanks : ∀ c ∈ blanks, Text.isBlank c = true) :
    Written .positional ('{' :: blanks ++ ['}'])
  | inline {before expression after : List Char}
    (hbefore : ∀ c ∈ before, Text.isBlank c = true)
    (hafter : ∀ c ∈ after, Text.isBlank c = true)
    (hopen : (before ++ expression ++ after ++ ['}']).head? ≠ some '{') :
    Written (.inline expression) ('{' :: before ++ expression ++ after ++ ['}'])

/-- A list of pieces is written as the written forms of its pieces in order. -/
def Written (parts : List Part) (text : List Char) : Prop :=
  ∃ texts, List.Forall₂ Part.Written parts texts ∧ text = texts.flatten

/-- One written form of each piece: a space at both ends of an expression. -/
def Part.write : Part → List Char
  | .code text => doubleBraces text
  | .inline expression => '{' :: ' ' :: expression ++ [' ', '}']
  | .positional => ['{', '}']

/-- One written form of a list of pieces. -/
def write (parts : List Part) : List Char := parts.flatMap Part.write

@[simp]
theorem doubleBraces_nil : doubleBraces [] = [] := rfl

/-- Braces are doubled character by character. -/
theorem doubleBraces_cons (c : Char) (text : List Char) :
    doubleBraces (c :: text) = doubleBraces [c] ++ doubleBraces text := by
  simp [doubleBraces]

/-- Doubled braces are made single again. -/
theorem singleBraces_doubleBraces (text : List Char) :
    singleBraces (doubleBraces text) = text := by
  induction text with
  | nil => rfl
  | cons c text ih =>
    rw [doubleBraces_cons]
    by_cases hopen : c = '{'
    · subst hopen
      exact congrArg ('{' :: ·) ih
    · by_cases hclose : c = '}'
      · subst hclose
        exact congrArg ('}' :: ·) ih
      · have hsingle : doubleBraces [c] = [c] := by simp [doubleBraces, hopen, hclose]
        rw [hsingle, List.singleton_append, singleBraces]
        · rw [ih]
        · intro _ heq
          exact absurd heq hopen
        · intro _ heq
          exact absurd heq hclose

theorem written_nil : Written [] [] := ⟨[], .nil, rfl⟩

/-- A written part and written parts are written one after the other. -/
theorem Written.cons {part : Part} {parts : List Part} {text rest : List Char}
    (hpart : part.Written text) (hparts : Written parts rest) :
    Written (part :: parts) (text ++ rest) := by
  obtain ⟨texts, htexts, rfl⟩ := hparts
  exact ⟨text :: texts, .cons hpart htexts, by simp⟩

/-- Parts are written when the first and the others are, one after the other. -/
theorem written_cons_iff {part : Part} {parts : List Part} {text : List Char} :
    Written (part :: parts) text ↔
      ∃ first rest, part.Written first ∧ Written parts rest ∧ text = first ++ rest := by
  constructor
  · rintro ⟨texts, htexts, rfl⟩
    cases htexts with
    | cons hpart hrest => exact ⟨_, _, hpart, ⟨_, hrest, rfl⟩, by simp⟩
  · rintro ⟨first, rest, hpart, hrest, rfl⟩
    exact Written.cons hpart hrest

/-- A normal piece may be written as `Part.write` does. -/
theorem Part.written_write {part : Part} (h : part.IsNormal) : part.Written part.write := by
  have hspace : ∀ c ∈ [' '], Text.isBlank c = true :=
    List.forall_mem_singleton.mpr (by decide)
  cases part with
  | code text => exact .code text
  | positional =>
    have hnone : ∀ c ∈ ([] : List Char), Text.isBlank c = true := by simp
    exact .positional hnone
  | inline expression =>
    have hopen : ([' '] ++ expression ++ [' '] ++ ['}']).head? ≠ some '{' := by simp
    simpa [Part.write] using Part.Written.inline hspace hspace hopen

/-- A normal list of pieces may be written as `write` does. -/
theorem written_write {parts : List Part} (h : ∀ part ∈ parts, part.IsNormal) :
    Written parts (write parts) := by
  induction parts with
  | nil => exact written_nil
  | cons part parts ih =>
    rw [write, List.flatMap_cons]
    exact Written.cons (Part.written_write (h part (by simp))) (ih fun p hp => h p (by simp [hp]))

/-! ## What is read -/

/-- The piece of a hole is normal, and it may be written as it was. -/
theorem ofHole_sound {hole : List Char} (hbalanced : IsBalanced hole)
    (hopen : (hole ++ ['}']).head? ≠ some '{') :
    (Part.ofHole hole).IsNormal ∧ (Part.ofHole hole).Written ('{' :: hole ++ ['}']) ∧
      (Part.ofHole hole).isCode = false := by
  obtain ⟨before, after, hhole, hbefore, hafter⟩ := Text.exists_trimBlanks hole
  have htrimmed := Text.isTrimmed_trimBlanks hole
  unfold Part.ofHole
  generalize Text.trimBlanks hole = expression at hhole htrimmed ⊢
  subst hhole
  by_cases hempty : expression = []
  · subst hempty
    refine ⟨trivial, ?_, rfl⟩
    apply Part.Written.positional
    intro c hc
    rcases List.mem_append.mp hc with hc | hc
    · exact hbefore c (by simpa using hc)
    · exact hafter c hc
  · have hpart : (if expression.isEmpty = true then Part.positional else .inline expression) =
        .inline expression := by simp [hempty]
    simp only [hpart]
    refine ⟨⟨hempty, htrimmed, (isBalanced_around_iff hbefore hafter).mp hbalanced⟩, ?_, rfl⟩
    exact .inline hbefore hafter hopen

/-- A character in front makes a normal list normal, and it is written in front. -/
theorem consCode_sound (c : Char) {parts : List Part} {text : List Char}
    (hnormal : IsNormal parts) (hwritten : Written parts text) :
    IsNormal (consCode c parts) ∧ Written (consCode c parts) (doubleBraces [c] ++ text) := by
  have hfresh : ∀ {parts : List Part}, IsNormal parts → Written parts text →
      (∀ next ∈ parts.head?, next.isCode = false) →
      IsNormal (.code [c] :: parts) ∧ Written (.code [c] :: parts) (doubleBraces [c] ++ text) := by
    intro parts hnormal hwritten hnext
    refine ⟨isNormal_cons_iff.mpr ⟨List.cons_ne_nil _ _, hnormal, ?_⟩, .cons (.code [c]) hwritten⟩
    rintro next hmem ⟨_, hcode⟩
    rw [hnext next hmem] at hcode
    exact absurd hcode (by decide)
  cases parts with
  | nil => exact hfresh hnormal hwritten (by simp)
  | cons part parts =>
    cases part with
    | inline expression => exact hfresh hnormal hwritten (by simp [Part.isCode])
    | positional => exact hfresh hnormal hwritten (by simp [Part.isCode])
    | code old =>
      obtain ⟨first, rest, hfirst, hrest, rfl⟩ := written_cons_iff.mp hwritten
      obtain ⟨_, hparts, hnext⟩ := isNormal_cons_iff.mp hnormal
      refine ⟨isNormal_cons_iff.mpr ⟨List.cons_ne_nil _ _, hparts, hnext⟩, ?_⟩
      cases hfirst
      rw [← List.append_assoc, ← doubleBraces_cons]
      exact .cons (.code _) hrest

/-- Pieces that are read are normal and were written so. -/
theorem readParts_sound {text : List Char} {parts : List Part} (h : readParts text = .ok parts) :
    IsNormal parts ∧ Written parts text := by
  -- Along the recursion of the reader: a character of code or a whole hole at a time.
  fun_induction readParts text generalizing parts with
  | case1 =>
    obtain rfl := Except.ok.inj h
    exact ⟨⟨by simp, .nil⟩, written_nil⟩
  | case2 rest ih =>
    obtain ⟨others, hothers, rfl⟩ := map_eq_ok h
    obtain ⟨hnormal, hwritten⟩ := ih hothers
    exact consCode_sound '{' hnormal hwritten
  | case3 rest ih =>
    obtain ⟨others, hothers, rfl⟩ := map_eq_ok h
    obtain ⟨hnormal, hwritten⟩ := ih hothers
    exact consCode_sound '}' hnormal hwritten
  | case4 => simp at h
  | case5 => simp at h
  | case6 rest hsingle hole after hread ih =>
    obtain ⟨others, hothers, rfl⟩ := map_eq_ok h
    obtain ⟨hnormal, hwritten⟩ := ih hothers
    obtain ⟨hbalanced, rfl⟩ := readHole_sound hread
    have hopen : (hole ++ ['}']).head? ≠ some '{' := by
      intro hhead
      cases hole with
      | nil => simp at hhead
      | cons c hole =>
        obtain rfl : c = '{' := by simpa using hhead
        exact hsingle (hole ++ '}' :: after) rfl
    obtain ⟨hpart, hform, hcode⟩ :=
      ofHole_sound ((balancedFrom_zero_iff hole).mp hbalanced) hopen
    refine ⟨isNormal_cons_iff.mpr ⟨hpart, hnormal, by simp [hcode]⟩, ?_⟩
    simpa using Written.cons hform hwritten
  | case7 c rest hopen hclose hneClose hneOpen ih =>
    obtain ⟨others, hothers, rfl⟩ := map_eq_ok h
    obtain ⟨hnormal, hwritten⟩ := ih hothers
    have hsingle : doubleBraces [c] = [c] := by
      have hbrace : ¬(c = '{' ∨ c = '}') := by
        rintro (hc | hc)
        · exact hneOpen hc
        · exact hneClose hc
      simp [doubleBraces, hbrace]
    simpa [hsingle] using consCode_sound c hnormal hwritten

/-! ## What is written -/

/-- Code that is written is read character by character, whatever follows it. -/
theorem readParts_doubleBraces (text rest : List Char) :
    readParts (doubleBraces text ++ rest) =
      (readParts rest).map fun parts => text.foldr consCode parts := by
  induction text with
  | nil => cases hrest : readParts rest <;> simp [hrest, Except.map]
  | cons c text ih =>
    have hstep : readParts (doubleBraces [c] ++ (doubleBraces text ++ rest)) =
        (readParts (doubleBraces text ++ rest)).map (consCode c) := by
      by_cases hopen : c = '{'
      · subst hopen
        change readParts ('{' :: '{' :: (doubleBraces text ++ rest)) = _
        rw [readParts]
      · by_cases hclose : c = '}'
        · subst hclose
          change readParts ('}' :: '}' :: (doubleBraces text ++ rest)) = _
          rw [readParts]
        · have hsingle : doubleBraces [c] = [c] := by simp [doubleBraces, hopen, hclose]
          rw [hsingle, List.singleton_append, readParts]
          · intro _ heq
            exact absurd heq hopen
          · intro _ heq
            exact absurd heq hclose
          · intro heq
            exact absurd heq hclose
          · intro heq
            exact absurd heq hopen
    rw [doubleBraces_cons, List.append_assoc, hstep, ih]
    cases readParts rest <;> rfl

/-- Characters of code put in front of pieces that do not start with code make one piece. -/
theorem foldr_consCode {text : List Char} (hne : text ≠ []) {parts : List Part}
    (h : ∀ next ∈ parts.head?, next.isCode = false) :
    text.foldr consCode parts = .code text :: parts := by
  induction text with
  | nil => exact absurd rfl hne
  | cons c text ih =>
    cases text with
    | cons d text => rw [List.foldr_cons, ih (by simp)]; rfl
    | nil =>
      cases parts with
      | nil => rfl
      | cons part parts =>
        cases part with
        | code old => exact absurd (h _ rfl) (by simp [Part.isCode])
        | inline expression => rfl
        | positional => rfl

/-- A hole that is written is read as the piece it stands for. -/
theorem readParts_hole {hole : List Char} (hbalanced : IsBalanced hole)
    (hopen : (hole ++ ['}']).head? ≠ some '{') (rest : List Char) :
    readParts ('{' :: hole ++ ['}'] ++ rest) =
      (readParts rest).map (Part.ofHole hole :: ·) := by
  have hread := readHole_balanced ((balancedFrom_zero_iff hole).mpr hbalanced) rest
  have htext : '{' :: hole ++ ['}'] ++ rest = '{' :: (hole ++ '}' :: rest) := by simp
  rw [htext, readParts]
  · rw [hread]
  · intro others heq
    cases hole with
    | nil => simp at heq
    | cons c hole => simp_all

/-- A hole with nothing but blanks takes an argument. -/
theorem ofHole_of_blank {hole : List Char} (h : ∀ c ∈ hole, Text.isBlank c = true) :
    Part.ofHole hole = .positional := by
  have hnone : ∀ c ∈ ([] : List Char), Text.isBlank c = true := by simp
  have hempty : Text.IsTrimmed [] := ⟨by simp, by simp⟩
  have htrim := Text.trimBlanks_eq h hnone hempty
  rw [List.append_nil, List.append_nil] at htrim
  simp [Part.ofHole, htrim]

/-- A hole holds its expression without the blanks around it. -/
theorem ofHole_inline {before expression after : List Char}
    (hbefore : ∀ c ∈ before, Text.isBlank c = true)
    (hafter : ∀ c ∈ after, Text.isBlank c = true) (hne : expression ≠ [])
    (htrimmed : Text.IsTrimmed expression) :
    Part.ofHole (before ++ expression ++ after) = .inline expression := by
  rw [Part.ofHole, Text.trimBlanks_eq hbefore hafter htrimmed]
  simp [hne]

/-- Normal pieces are read back, in whichever way they are written. -/
theorem readParts_write {parts : List Part} {text : List Char} (hnormal : IsNormal parts)
    (hwritten : Written parts text) : readParts text = .ok parts := by
  induction parts generalizing text with
  | nil =>
    obtain ⟨texts, htexts, rfl⟩ := hwritten
    cases htexts
    rw [List.flatten_nil, readParts]
  | cons part parts ih =>
    obtain ⟨hpart, hparts, hnext⟩ := isNormal_cons_iff.mp hnormal
    obtain ⟨first, rest, hfirst, hrest, rfl⟩ := written_cons_iff.mp hwritten
    have hread := ih hparts hrest
    cases hfirst with
    | code text =>
      have hcode : ∀ next ∈ parts.head?, next.isCode = false := by
        intro next hmem
        simpa [Part.isCode] using hnext next hmem
      rw [readParts_doubleBraces, hread]
      exact congrArg Except.ok (foldr_consCode hpart hcode)
    | positional hblanks =>
      rename_i blanks
      have hopen : (blanks ++ ['}']).head? ≠ some '{' := by
        cases blanks with
        | nil => simp
        | cons c blanks =>
          have hc := (ne_brace_of_isBlank (hblanks c (by simp))).1
          simpa using hc
      rw [readParts_hole (isBalanced_of_blank hblanks) hopen, ofHole_of_blank hblanks, hread]
      rfl
    | inline hbefore hafter hopen =>
      rename_i before expression after
      obtain ⟨hne, htrimmed, hbalanced⟩ := hpart
      have hhole := (isBalanced_around_iff hbefore hafter).mpr hbalanced
      have hstep := readParts_hole hhole hopen rest
      rw [ofHole_inline hbefore hafter hne htrimmed, hread] at hstep
      have htext : '{' :: before ++ expression ++ after ++ ['}'] ++ rest =
          '{' :: (before ++ expression ++ after) ++ ['}'] ++ rest := by simp
      rw [htext, hstep]
      rfl

/-! ## Templates -/

/-- Reading gives pieces exactly when they are normal and the template is written so. -/
theorem parse_eq_ok_iff (template : String) (parts : List Part) :
    parse template = .ok parts ↔ IsNormal parts ∧ Written parts template.toList :=
  ⟨readParts_sound, fun ⟨hnormal, hwritten⟩ => readParts_write hnormal hwritten⟩

/-- Reading accepts exactly the grammar of templates, and what it gives is determined by
it.  A template is read as the normal pieces that it is a written form of, and a text that
is no written form of normal pieces is refused.  So normal pieces that are written with a
space at both ends of each expression are read back; and what stands outside the holes of
a template becomes code with nothing changed but doubled braces made single. -/
theorem parse_accepts_templates :
    (∀ (template : String) (parts : List Part), parse template = .ok parts ↔
      IsNormal parts ∧ Written parts template.toList) ∧
    (∀ template : String, (∀ parts, ¬(IsNormal parts ∧ Written parts template.toList)) →
      ∃ fault, parse template = .error fault) ∧
    (∀ parts, IsNormal parts → parse (String.ofList (write parts)) = .ok parts) ∧
    ∀ (template : String) (parts : List Part), parse template = .ok parts →
      ∃ texts, template.toList = texts.flatten ∧ List.Forall₂ (fun part text =>
        part.Written text ∧ ∀ code, part = .code code → code = singleBraces text) parts texts := by
  refine ⟨parse_eq_ok_iff, ?_, ?_, ?_⟩
  · intro template hnone
    cases hparse : parse template with
    | error fault => exact ⟨fault, rfl⟩
    | ok parts => exact absurd ((parse_eq_ok_iff template parts).mp hparse) (hnone parts)
  · intro parts hnormal
    rw [parse_eq_ok_iff, String.toList_ofList]
    exact ⟨hnormal, written_write hnormal.1⟩
  · intro template parts hparse
    obtain ⟨_, texts, htexts, htemplate⟩ := (parse_eq_ok_iff template parts).mp hparse
    refine ⟨texts, htemplate, htexts.imp ?_⟩
    intro part text hpart
    refine ⟨hpart, ?_⟩
    rintro code rfl
    cases hpart
    exact (singleBraces_doubleBraces code).symm

/-- Runs of three braces on both sides of a hole that holds braces itself. -/
theorem parse_accepts_templates_braces :
    IsNormal [.code ['{'], .inline ['a', '{', '}'], .code ['}'], .positional] ∧
      parse "{{{ a{} }}}{}" =
        .ok [.code ['{'], .inline ['a', '{', '}'], .code ['}'], .positional] := by
  have hnormal : IsNormal [.code ['{'], .inline ['a', '{', '}'], .code ['}'], .positional] := by
    have htrimmed : Text.IsTrimmed ['a', '{', '}'] := by
      constructor
      · intro c hc
        cases hc
        decide
      · intro c hc
        cases hc
        decide
    have hbalanced := (balancedFrom_zero_iff ['a', '{', '}']).mp rfl
    refine ⟨?_, by decide⟩
    intro part hpart
    simp only [List.mem_cons, List.not_mem_nil, or_false] at hpart
    rcases hpart with rfl | rfl | rfl | rfl
    · exact List.cons_ne_nil _ _
    · exact ⟨List.cons_ne_nil _ _, htrimmed, hbalanced⟩
    · exact List.cons_ne_nil _ _
    · trivial
  exact ⟨hnormal, parse_accepts_templates.2.2.1 _ hnormal⟩

end SqlFragments.Template
