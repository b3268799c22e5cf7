import Mathlib.Logic.Function.Iterate
import SqlFragments.Proofs.Clause.PredicateText
import SqlFragments.Proofs.Compiler.Decoding

/-!
# Quotes around names

A scanner goes through a command character by character and knows only the rule of double
quotes: a quote opens or closes a quoted section, and two quotes inside one are one quote of
its text.  It reads an identifier as the identifier was meant, whatever follows, as long as
that starts with no quote: the quoted sections are the quoted names, there is nothing
outside them but the characters of plain names and dots, and at the end the scanner is
outside quotes.  So what a predicate writes after its column is read as code.

Main results:

- `Quoting.scan_append`: a text is scanned part by part, unless quotes would join the parts.
- `Quoting.isQuoted_scan`: every double quote changes the side of the quotes that the scanner
  is on.
- `Identifier.scan_doubleQuotes`: in quotes a name is read as it is, before any text that
  starts with no quote.
- `Identifier.scan_writeParts`: how an identifier is scanned.
- `Identifier.names_stay_in_quotes`: what the scanner has seen of an identifier when it
  reaches its end, in every command of a predicate too.
-/

namespace SqlFragments

/-! ## The scanner -/

namespace Quoting

/-- What the scanner reads. -/
inductive Sign where
  /-- A character outside quotes. -/
  | code (c : Char)
  | opening
  /-- A character of a quoted section; two quotes are one. -/
  | quoted (c : Char)
  | closing
deriving DecidableEq

/-- The characters that a sign stands for. -/
def Sign.write : Sign → List Char
  | .code c => [c]
  | .opening => ['"']
  | .quoted c => if c = '"' then ['"', '"'] else [c]
  | .closing => ['"']

/-- What the scanner has read, and whether it is inside quotes at the end. -/
structure Scan where
  signs : List Sign
  isQuoted : Bool
deriving DecidableEq

namespace Scan

/-- The scan of a text with something read before it. -/
def after (signs : List Sign) (s : Scan) : Scan := { s with signs := signs ++ s.signs }

@[simp]
theorem after_after (signs others : List Sign) (s : Scan) :
    (s.after others).after signs = s.after (signs ++ others) := by
  simp [after]

@[simp]
theorem isQuoted_after (signs : List Sign) (s : Scan) : (s.after signs).isQuoted = s.isQuoted := rfl

@[simp]
theorem signs_after (signs : List Sign) (s : Scan) : (s.after signs).signs = signs ++ s.signs := rfl

end Scan

/-- Reads a text from left to right, inside or outside quotes. -/
def scan : Bool → List Char → Scan
  | isQuoted, [] => ⟨[], isQuoted⟩
  | false, '"' :: rest => (scan true rest).after [.opening]
  | false, c :: rest => (scan false rest).after [.code c]
  | true, '"' :: '"' :: rest => (scan true rest).after [.quoted '"']
  | true, '"' :: rest => (scan false rest).after [.closing]
  | true, c :: rest => (scan true rest).after [.quoted c]

@[simp]
theorem scan_nil (isQuoted : Bool) : scan isQuoted [] = ⟨[], isQuoted⟩ := rfl

/-- A quote outside quotes opens them. -/
theorem scan_opening (rest : List Char) :
    scan false ('"' :: rest) = (scan true rest).after [.opening] := rfl

/-- Any other character outside quotes is code. -/
theorem scan_code {c : Char} (hc : c ≠ '"') (rest : List Char) :
    scan false (c :: rest) = (scan false rest).after [.code c] := by
  simp [scan]

/-- A doubled quote inside quotes is one quoted quote. -/
theorem scan_doubled (rest : List Char) :
    scan true ('"' :: '"' :: rest) = (scan true rest).after [.quoted '"'] := rfl

/-- A quote closes a section if no other quote follows. -/
theorem scan_closing {rest : List Char} (h : rest.head? ≠ some '"') :
    scan true ('"' :: rest) = (scan false rest).after [.closing] := by
  cases rest with
  | nil => rfl
  | cons c rest =>
    have hc : c ≠ '"' := by simpa using h
    simp [scan, hc]

/-- Any other character inside quotes is quoted. -/
theorem scan_quoted {c : Char} (hc : c ≠ '"') (rest : List Char) :
    scan true (c :: rest) = (scan true rest).after [.quoted c] := by
  simp [scan, hc]

/-- The text of the quoted sections that are closed, in order; `name` is what has been read
of the section that is open. -/
def sectionsFrom (name : List Char) : List Sign → List (List Char)
  | [] => []
  | .code _ :: rest => sectionsFrom name rest
  | .opening :: rest => sectionsFrom [] rest
  | .quoted c :: rest => sectionsFrom (name ++ [c]) rest
  | .closing :: rest => name :: sectionsFrom [] rest

/-- The text of the quoted sections among signs, in order. -/
def sections (signs : List Sign) : List (List Char) := sectionsFrom [] signs

/-- The scanner drops no character and makes none up. -/
theorem write_scan (isQuoted : Bool) (text : List Char) :
    (scan isQuoted text).signs.flatMap Sign.write = text := by
  fun_induction scan isQuoted text with
  | case1 => rfl
  | case2 rest ih => simp [Sign.write, ih]
  | case3 c rest hc ih => simp [Sign.write, ih]
  | case4 rest ih => simp [Sign.write, ih]
  | case5 rest hquote ih => simp [Sign.write, ih]
  | case6 c rest _ hquote ih =>
    have hc : c ≠ '"' := hquote
    simp [Sign.write, hc, ih]

/-- Every double quote changes the side of the quotes that the scanner is on. -/
theorem isQuoted_scan (isQuoted : Bool) (text : List Char) :
    (scan isQuoted text).isQuoted = not^[text.count '"'] isQuoted := by
  fun_induction scan isQuoted text with
  | case1 => rfl
  | case2 rest ih =>
    rw [Scan.isQuoted_after, ih, List.count_cons_self, Function.iterate_succ_apply]
    rfl
  | case3 c rest hquote ih => rw [Scan.isQuoted_after, ih, List.count_cons_of_ne hquote]
  | case4 rest ih =>
    rw [Scan.isQuoted_after, ih, List.count_cons_self, List.count_cons_self,
      Function.iterate_succ_apply, Function.iterate_succ_apply]
    rfl
  | case5 rest _ ih =>
    rw [Scan.isQuoted_after, ih, List.count_cons_self, Function.iterate_succ_apply]
    rfl
  | case6 c rest _ hquote ih => rw [Scan.isQuoted_after, ih, List.count_cons_of_ne hquote]

/-- A text is scanned part by part, unless a quote at the end of one part and a quote at the
start of the next would be one. -/
theorem scan_append (isQuoted : Bool) (text : List Char) {rest : List Char}
    (h : rest.head? ≠ some '"') :
    scan isQuoted (text ++ rest) =
      (scan (scan isQuoted text).isQuoted rest).after (scan isQuoted text).signs := by
  fun_induction scan isQuoted text with
  | case1 => rfl
  | case2 text ih =>
    rw [List.cons_append, scan_opening, ih, Scan.after_after]
    rfl
  | case3 c text hc ih =>
    rw [List.cons_append, scan_code hc, ih, Scan.after_after]
    rfl
  | case4 text ih =>
    rw [List.cons_append, List.cons_append, scan_doubled, ih, Scan.after_after]
    rfl
  | case5 text hquote ih =>
    have hnext : (text ++ rest).head? ≠ some '"' := by
      cases text with
      | nil => exact h
      | cons c text =>
        intro heq
        exact hquote text (by rw [Option.some.inj heq])
    rw [List.cons_append, scan_closing hnext, ih, Scan.after_after]
    rfl
  | case6 c text _ hc ih =>
    rw [List.cons_append, scan_quoted hc, ih, Scan.after_after]
    rfl

/-- A text without quotes is code outside them. -/
theorem scan_of_notMem {text : List Char} (h : '"' ∉ text) :
    scan false text = ⟨text.map .code, false⟩ := by
  induction text with
  | nil => rfl
  | cons c rest ih =>
    rw [List.mem_cons, not_or] at h
    rw [scan_code (Ne.symm h.1), ih h.2]
    rfl

/-! ## The sections among signs -/

@[simp]
theorem sectionsFrom_code (name text : List Char) (rest : List Sign) :
    sectionsFrom name (text.map .code ++ rest) = sectionsFrom name rest := by
  induction text with
  | nil => rfl
  | cons c text ih => exact ih

@[simp]
theorem sectionsFrom_quoted (name text : List Char) (rest : List Sign) :
    sectionsFrom name (text.map .quoted ++ rest) = sectionsFrom (name ++ text) rest := by
  induction text generalizing name with
  | nil => simp
  | cons c text ih =>
    rw [List.map_cons, List.cons_append, sectionsFrom, ih, List.append_assoc]
    rfl

end Quoting

/-! ## Identifiers under the scanner -/

namespace Identifier

open Quoting

/-- The signs of a part. -/
def Part.signs : Part → List Sign
  | .unquoted name => name.toList.map .code
  | .quoted name => .opening :: (name.toList.map .quoted ++ [.closing])

/-- The name that a part has in quotes. -/
def Part.quotedName? : Part → Option String
  | .unquoted _ => none
  | .quoted name => some name

/-- The signs of parts with dots between them. -/
def signsOf (parts : List Part) : List Sign := [.code '.'].intercalate (parts.map Part.signs)

theorem signsOf_singleton (part : Part) : signsOf [part] = part.signs := by
  simp [signsOf]

/-- The first of several parts is followed by a dot in the code. -/
theorem signsOf_cons_cons (part next : Part) (parts : List Part) :
    signsOf (part :: next :: parts) = part.signs ++ .code '.' :: signsOf (next :: parts) := by
  simp [signsOf, List.intercalate_cons_cons]

/-- The characters of a name that needs no quotes. -/
theorem isNameNext_of_mem {name : String} (h : (Part.unquoted name).IsValid) :
    ∀ c ∈ name.toList, IsNameNext c := by
  rcases h with ⟨first, rest, hname, hfirst, hrest⟩
  rw [hname]
  exact List.forall_mem_cons.mpr ⟨.inl hfirst, hrest⟩

/-- In quotes a name is read as it is, up to the quote that closes it: each quote of the name
is read together with its double, so none of them is next to the closing one. -/
theorem scan_doubleQuotes (name : List Char) {rest : List Char} (h : rest.head? ≠ some '"') :
    scan true (doubleQuotes name ++ '"' :: rest) =
      (scan false rest).after (name.map .quoted ++ [.closing]) := by
  induction name with
  | nil => exact scan_closing h
  | cons c name ih =>
    by_cases hc : c = '"'
    · subst hc
      have hdouble : doubleQuotes ('"' :: name) = '"' :: '"' :: doubleQuotes name := rfl
      rw [hdouble, List.cons_append, List.cons_append, scan_doubled, ih, Scan.after_after]
      rfl
    · have hsingle : doubleQuotes (c :: name) = c :: doubleQuotes name := by
        simp [doubleQuotes, hc]
      rw [hsingle, List.cons_append, scan_quoted hc, ih, Scan.after_after]
      rfl

/-- A valid part is scanned as its signs, and its quotes are closed. -/
theorem scan_write {part : Part} (hvalid : part.IsValid) :
    scan false part.write = ⟨part.signs, false⟩ := by
  cases part with
  | unquoted name =>
    apply scan_of_notMem
    intro hmem
    have hquote := (continuesName_iff _).mpr (isNameNext_of_mem hvalid _ hmem)
    exact absurd hquote (by decide)
  | quoted name =>
    have hend : ([] : List Char).head? ≠ some '"' := by simp
    have hname := scan_doubleQuotes name.toList hend
    rw [Part.write, writeQuoted, List.cons_append, scan_opening, hname]
    simp [Part.signs, Scan.after]

/-- Parts are scanned one by one: what follows a part starts with a dot, not with a quote. -/
theorem scan_writeParts {parts : List Part} (hall : ∀ part ∈ parts, part.IsValid) :
    scan false (writeParts parts) = ⟨signsOf parts, false⟩ := by
  induction parts with
  | nil => rfl
  | cons part parts ih =>
    have hpart := scan_write (hall part (by simp))
    have hparts := ih fun p hp => hall p (by simp [hp])
    cases parts with
    | nil => rw [writeParts_singleton, hpart, signsOf_singleton]
    | cons next parts =>
      rw [writeParts_cons_cons, scan_append false part.write (by simp), hpart,
        scan_code (by decide), hparts, signsOf_cons_cons]
      rfl

/-- A valid identifier is scanned as the signs of its parts, and its quotes are closed. -/
theorem scan_toSql {i : Identifier} (hall : ∀ part ∈ i.parts, part.IsValid) :
    scan false i.toSql.toList = ⟨signsOf i.parts, false⟩ := by
  rw [toSql_eq, String.toList_ofList]
  exact scan_writeParts hall

/-- The sections of a part that others follow. -/
theorem sections_append (part : Part) (rest : List Sign) :
    sections (part.signs ++ rest) =
      part.quotedName?.toList.map String.toList ++ sections rest := by
  cases part with
  | unquoted name => exact sectionsFrom_code [] name.toList rest
  | quoted name => simp [Part.signs, Part.quotedName?, sections, sectionsFrom]

/-- The sections of an identifier are its quoted names. -/
theorem sections_signsOf (parts : List Part) :
    sections (signsOf parts) = (parts.filterMap Part.quotedName?).map String.toList := by
  induction parts with
  | nil => rfl
  | cons part parts ih =>
    have hname : ∀ others, (part :: others).filterMap Part.quotedName? =
        part.quotedName?.toList ++ others.filterMap Part.quotedName? := by
      intro others
      cases part <;> rfl
    cases parts with
    | nil =>
      have hlast := sections_append part []
      rw [List.append_nil] at hlast
      rw [signsOf_singleton, hlast, hname, List.map_append]
      rfl
    | cons next parts =>
      have hdot : sections (.code '.' :: signsOf (next :: parts)) =
          sections (signsOf (next :: parts)) := rfl
      rw [signsOf_cons_cons, sections_append, hdot, ih, hname, List.map_append]

/-- Outside quotes there are the characters of names and dots. -/
theorem isNameNext_of_code {parts : List Part} (hall : ∀ part ∈ parts, part.IsValid) {c : Char}
    (h : .code c ∈ signsOf parts) : IsNameNext c ∨ c = '.' := by
  rcases Text.mem_intercalate h with hdot | ⟨signs, hsigns, hc⟩
  · exact .inr (Sign.code.inj (List.mem_singleton.mp hdot))
  · rcases List.mem_map.mp hsigns with ⟨part, hpart, rfl⟩
    cases part with
    | unquoted name =>
      rcases List.mem_map.mp hc with ⟨d, hd, heq⟩
      obtain rfl := Sign.code.inj heq
      exact .inl (isNameNext_of_mem (hall _ hpart) d hd)
    | quoted name => simp [Part.signs] at hc

/-- A character that starts a name is no blank. -/
theorem isBlank_of_isNameStart {c : Char} (h : IsNameStart c) : Text.isBlank c = false := by
  rw [Bool.eq_false_iff]
  intro hblank
  rcases Text.inRanges_iff.mp hblank with ⟨range, hrange, hlow, hhigh⟩
  have hout : range.2 < 65 ∨ 122 < range.1 := by
    have hall : ∀ range ∈ Text.blankRanges, range.2 < 65 ∨ 122 < range.1 := by decide
    exact hall range hrange
  have hcode : 65 ≤ c.toNat ∧ c.toNat ≤ 122 := by
    rcases h with (⟨hge, hle⟩ | ⟨hge, hle⟩) | rfl
    · have hge' : 65 ≤ c.toNat := hge
      have hle' : c.toNat ≤ 90 := hle
      omega
    · have hge' : 97 ≤ c.toNat := hge
      have hle' : c.toNat ≤ 122 := hle
      omega
    · decide
  omega

/-- Valid parts are written as a text that has a word. -/
theorem words_writeParts {parts : List Part} (hne : parts ≠ [])
    (hall : ∀ part ∈ parts, part.IsValid) : Text.words (writeParts parts) ≠ [] := by
  rcases List.exists_cons_of_ne_nil hne with ⟨part, others, rfl⟩
  have hpart : ∃ c rest, part.write = c :: rest ∧ Text.isBlank c = false := by
    have hvalid := hall part (by simp)
    cases part with
    | unquoted name =>
      rcases hvalid with ⟨c, rest, hname, hfirst, _⟩
      exact ⟨c, rest, hname, isBlank_of_isNameStart hfirst⟩
    | quoted name => exact ⟨'"', _, rfl, by decide⟩
  rcases hpart with ⟨c, rest, hwrite, hc⟩
  have hstart : ∃ after, writeParts (part :: others) = c :: after := by
    cases others with
    | nil => exact ⟨rest, by rw [writeParts_singleton, hwrite]⟩
    | cons next others => exact ⟨_, by rw [writeParts_cons_cons, hwrite, List.cons_append]⟩
  rcases hstart with ⟨after, hafter⟩
  rw [hafter]
  exact Text.words_ne_nil hc after

end Identifier

/-! ## What follows a column -/

/-- A built-in style writes no quotes. -/
theorem Placeholder.quote_notMem_token {p : Placeholder} (hp : ∀ name, p ≠ .custom name)
    (index : Nat) : '"' ∉ (p.token index).toList := by
  rcases exists_token_eq hp index with ⟨mark, rest, htoken, hmark, hrest⟩
  rw [htoken, List.mem_cons, not_or]
  constructor
  · rintro rfl
    exact absurd hmark (by decide)
  · intro hmem
    exact absurd (hrest _ hmem) (by decide)

namespace Predicate

/-- An operator is a blank and a sign or a word. -/
theorem exists_operator (p : Predicate) :
    ∃ c rest, p.operator.toList = ' ' :: c :: rest ∧ Text.isBlank c = false := by
  have hfirst : ∀ c ∈ ['=', '!', '>', '<', 'L', 'I', 'N', 'B'], Text.isBlank c = false := by
    simp [Text.isBlank, Text.inRanges, Text.blankRanges]
  have hoperator : ∃ c rest, p.operator.toList = ' ' :: c :: rest ∧
      c ∈ ['=', '!', '>', '<', 'L', 'I', 'N', 'B'] := by
    cases p with
    | compare comparison v => cases comparison <;> simp [operator]
    | isNull => simp [operator]
    | isNotNull => simp [operator]
    | inList values => simp [operator]
    | notIn values => simp [operator]
    | between low high => simp [operator]
  rcases hoperator with ⟨c, rest, hoperator, hc⟩
  exact ⟨c, rest, hoperator, hfirst c hc⟩

/-- What follows a column is a blank and a text with a word. -/
theorem exists_afterColumn (placeholder : Placeholder) (start : Nat) (p : Predicate) :
    ∃ rest, (p.afterColumn placeholder start).toList = ' ' :: rest ∧ Text.words rest ≠ [] := by
  rcases p.exists_operator with ⟨c, rest, hoperator, hc⟩
  refine ⟨c :: (rest ++ (p.glue.intercalate
    (placeholder.tokensFrom start p.arguments.length)).toList ++ p.closing.toList), ?_, ?_⟩
  · rw [afterColumn, String.toList_append, String.toList_append, hoperator]
    rfl
  · exact Text.words_ne_nil hc _

/-- If no token has a quote, there is none after a column. -/
theorem quote_notMem_afterColumn {placeholder : Placeholder}
    (h : ∀ index, '"' ∉ (placeholder.token index).toList) (start : Nat) (p : Predicate) :
    '"' ∉ (p.afterColumn placeholder start).toList := by
  have hoperator : '"' ∉ p.operator.toList := by
    cases p with
    | compare comparison v => cases comparison <;> simp [operator]
    | isNull => simp [operator]
    | isNotNull => simp [operator]
    | inList values => simp [operator]
    | notIn values => simp [operator]
    | between low high => simp [operator]
  have hglue : '"' ∉ p.glue.toList := by
    cases p <;> simp [glue]
  have hclosing : '"' ∉ p.closing.toList := by
    cases p <;> simp [closing]
  rw [afterColumn, String.toList_append, String.toList_append, String.toList_intercalate,
    List.mem_append, List.mem_append]
  rintro ((hmem | hmem) | hmem)
  · exact hoperator hmem
  · rcases Text.mem_intercalate hmem with hmem | ⟨text, htext, hmem⟩
    · exact hglue hmem
    · rcases List.mem_map.mp htext with ⟨token, htoken, rfl⟩
      rcases List.mem_map.mp htoken with ⟨i, hi, rfl⟩
      exact h (start + i) hmem
  · exact hclosing hmem

end Predicate

/-- Without a function at the end, a command has the characters of the text that are no
blanks. -/
theorem Compiler.count_finish {c : Compiler} (hpost : c.postProcess = none) {d : Char}
    (hd : Text.isBlank d = false) (text : String) :
    (c.finish text).toList.count d = text.toList.count d := by
  simp only [finish, hpost, Option.elim_none]
  split
  · exact count_collapse hd text
  · rfl

/-- A blank with words on both sides divides a command; where blanks are collapsed, it is
one space. -/
theorem Compiler.finish_append_blank {c : Compiler} (hpost : c.postProcess = none)
    {text after : String} {rest : List Char} (htext : Text.words text.toList ≠ [])
    (hafter : after.toList = ' ' :: rest) (hrest : Text.words rest ≠ []) :
    c.finish (text ++ after) =
      c.finish text ++ ((if c.normalizesBlanks then " " else "") ++ c.finish after) := by
  have hblank : Text.isBlank ' ' = true := by decide
  simp only [finish, hpost, Option.elim_none]
  split
  · have hspaced : Text.spaced (' ' :: rest) = Text.spaced rest := by
      rw [Text.spaced, Text.words_cons_blank hblank, Text.spaced]
    rw [← String.toList_inj]
    simp only [Text.toList_collapseBlanks, String.toList_append, hafter, hspaced,
      Text.spaced_append_blank htext hblank hrest]
    rfl
  · simp

namespace Predicate

/-- What the command of a predicate has after its column. -/
def ending (c : Compiler) (p : Predicate) : String :=
  (if c.normalizesBlanks then " " else "") ++ c.finish (p.afterColumn c.placeholder 0)

/-- What follows the column in a predicate starts with a space. -/
theorem head_ending {c : Compiler} (hpost : c.postProcess = none) (p : Predicate) :
    (p.ending c).toList.head? = some ' ' := by
  rcases p.exists_afterColumn c.placeholder 0 with ⟨rest, hafter, _⟩
  by_cases hcollapse : c.normalizesBlanks = true
  · simp [ending, hcollapse]
  · simp [ending, hcollapse, Compiler.finish, hpost, hafter]

/-- If no token has a quote, there is none after the column. -/
theorem quote_notMem_ending {c : Compiler} (hpost : c.postProcess = none)
    (h : ∀ index, '"' ∉ (c.placeholder.token index).toList) (p : Predicate) :
    '"' ∉ (p.ending c).toList := by
  have hnone := List.count_eq_zero.mpr (p.quote_notMem_afterColumn h 0)
  rw [← Compiler.count_finish hpost (by decide)] at hnone
  rw [ending, String.toList_append, List.mem_append]
  rintro (hmem | hmem)
  · split at hmem
    · exact absurd hmem (by decide)
    · exact absurd hmem (by decide)
  · exact List.count_eq_zero.mp hnone hmem

/-- The command of a predicate that is no constant is its column and what comes after. -/
theorem command_query {c : Compiler} (hpost : c.postProcess = none) {i : Identifier}
    (hcolumn : Text.words i.toSql.toList ≠ []) {p : Predicate} (hp : p.constant? = none) :
    (c.compile (p.query i)).command = c.finish i.toSql ++ p.ending c := by
  rcases p.exists_afterColumn c.placeholder 0 with ⟨rest, hafter, hrest⟩
  rw [ending, ← Compiler.finish_append_blank hpost hcolumn hafter hrest, Compiler.compile_query,
    textFrom_query, text, hp]
  rfl

end Predicate

namespace Identifier

open Quoting

/-- Collapsing blanks may change what is in the quotes of a column, but not how many quotes
there are, so the scanner is outside them at the end. -/
theorem isQuoted_scan_finish {c : Compiler} (hpost : c.postProcess = none) {i : Identifier}
    (hall : ∀ part ∈ i.parts, part.IsValid) :
    (scan false (c.finish i.toSql).toList).isQuoted = false := by
  rw [isQuoted_scan, Compiler.count_finish hpost (by decide), ← isQuoted_scan, scan_toSql hall]

/-- An identifier that was read or quoted is read as it was meant by whoever knows the rule
of double quotes, before any text that starts with no quote.  The reader is outside quotes at
its end and has met no NUL, every character outside quotes is one of a plain name or a dot,
and what is in quotes are the quoted names in their order.  In the command of a predicate
the reader is outside quotes where the column ends, with blanks collapsed or not, so the
rest is read as it is alone; if no token has a quote, as no token of a built-in style has,
the rest is code to its end. -/
theorem names_stay_in_quotes {i : Identifier}
    (h : (∃ text, parse text = .ok i) ∨ ∃ name, ofQuoted name = .ok i) :
    let text := i.toSql.toList
    let seen := (scan false text).signs
    (∀ rest : List Char, rest.head? ≠ some '"' →
      scan false (text ++ rest) = (scan false rest).after seen) ∧
    (scan false text).isQuoted = false ∧ seen.flatMap Sign.write = text ∧ '\x00' ∉ text ∧
    (∀ c, .code c ∈ seen → IsNameNext c ∨ c = '.') ∧
    sections seen = (i.parts.filterMap Part.quotedName?).map String.toList ∧
    (∀ (p : Predicate) (c : Compiler), p.constant? = none → c.postProcess = none →
      let column := c.finish i.toSql
      (c.compile (p.query i)).command = column ++ p.ending c ∧
      (scan false column.toList).isQuoted = false ∧
      scan false (column ++ p.ending c).toList =
        (scan false (p.ending c).toList).after (scan false column.toList).signs ∧
      ((∀ index, '"' ∉ (c.placeholder.token index).toList) →
        scan false (p.ending c).toList = ⟨(p.ending c).toList.map .code, false⟩)) ∧
    ∀ p : Placeholder, (∀ name, p ≠ .custom name) → ∀ index, '"' ∉ (p.token index).toList := by
  intro text seen
  rcases areValid_parts h with ⟨hne, hall⟩
  have htext : text = writeParts i.parts := String.toList_ofList
  have hscan : scan false text = ⟨signsOf i.parts, false⟩ := scan_toSql hall
  have hseen : seen = signsOf i.parts := congrArg Scan.signs hscan
  refine ⟨?_, ?_, write_scan false text, ?_, ?_, ?_, ?_, fun p hp => p.quote_notMem_token hp⟩
  · intro rest hrest
    rw [scan_append false text hrest, hscan, hseen]
  · rw [hscan]
  · rw [htext]
    exact nul_notMem_writeParts hall
  · rw [hseen]
    exact fun c hc => isNameNext_of_code hall hc
  · rw [hseen]
    exact sections_signsOf i.parts
  · intro p c hp hpost column
    have hwords : Text.words text ≠ [] := by
      rw [htext]
      exact words_writeParts hne hall
    have houtside : (scan false column.toList).isQuoted = false := isQuoted_scan_finish hpost hall
    have hblank : (p.ending c).toList.head? ≠ some '"' := by
      simp [p.head_ending hpost]
    refine ⟨Predicate.command_query hpost hwords hp, houtside, ?_, ?_⟩
    · rw [String.toList_append, scan_append false column.toList hblank, houtside]
    · intro htoken
      exact scan_of_notMem (p.quote_notMem_ending hpost htoken)

/-- A name that starts and ends with a quote, in a comparison whose blanks are collapsed. -/
theorem names_stay_in_quotes_hostile :
    let i : Identifier := ⟨[.quoted "\";  --\""]⟩
    let p : Predicate := .compare .eq .null
    let c : Compiler := ⟨.dollar, true, none⟩
    ofQuoted "\";  --\"" = .ok i ∧ p.constant? = none ∧ c.postProcess = none ∧
      sections (scan false i.toSql.toList).signs = ["\";  --\"".toList] ∧
      (c.compile (p.query i)).command = "\"\"\"; --\"\"\" = $1" ∧
      scan false (c.compile (p.query i)).command.toList =
        (⟨" = $1".toList.map .code, false⟩ : Scan).after
          (.opening :: ("\"; --\"".toList.map .quoted ++ [.closing])) := by
  intro i p c
  have hi : ofQuoted "\";  --\"" = .ok i := rfl
  rcases names_stay_in_quotes (.inr ⟨_, hi⟩) with ⟨_, _, _, _, _, hnames, hpredicates, hbuiltin⟩
  rcases hpredicates p c rfl rfl with ⟨hcommand, _, hscan, hcode⟩
  have htoken : ∀ index, '"' ∉ (c.placeholder.token index).toList :=
    hbuiltin .dollar (by simp)
  refine ⟨hi, rfl, rfl, hnames, by decide +kernel, ?_⟩
  rw [hcommand, hscan, hcode htoken]
  decide +kernel

end Identifier

end SqlFragments
