import SqlFragments.Proofs.Compiler.Flattening
import SqlFragments.Proofs.Text.Spacing

/-!
# Tokens of a text

A token is a sigil with digits, as many as follow it.  A text is read from left to
right and cut at its tokens, and what stands between them is kept.  No token reaches
over a blank, so collapsing blanks neither divides a token nor joins one to a digit
after it.

Main results:

- `scan_token`: a sigil with digits that no digit follows is one token.
- `tokens_append_blank`: the tokens on the two sides of a blank are found apart.
- `tokens_collapse`: collapsing blanks keeps the tokens of every text.
-/

namespace SqlFragments

/-! ## Cuts -/

/-- What is cut at marks: the text before the first mark, and every mark with the text
between it and the next one. -/
structure Cut (α : Type) where
  before : List Char
  marks : List (α × List Char)

namespace Cut

variable {α β : Type}

/-- The cut with a text in front. -/
def prepend (text : List Char) (cut : Cut α) : Cut α := ⟨text ++ cut.before, cut.marks⟩

/-- The cut with a mark in front. -/
def mark (a : α) (cut : Cut α) : Cut α := ⟨[], (a, cut.before) :: cut.marks⟩

/-- The marks alone, in order. -/
def names (cut : Cut α) : List α := cut.marks.map Prod.fst

/-- The texts after the marks, in order. -/
def texts (cut : Cut α) : List (List Char) := cut.marks.map Prod.snd

/-- The cut with its marks renamed by their numbers. -/
def rename (name : Nat → β) (cut : Cut α) : Cut β :=
  ⟨cut.before, cut.marks.mapIdx fun i mark => (name i, mark.2)⟩

@[simp]
theorem names_prepend (text : List Char) (cut : Cut α) :
    (cut.prepend text).names = cut.names := rfl

@[simp]
theorem names_mark (a : α) (cut : Cut α) : (cut.mark a).names = a :: cut.names := rfl

@[simp]
theorem rename_prepend (name : Nat → β) (text : List Char) (cut : Cut α) :
    (cut.prepend text).rename name = (cut.rename name).prepend text := rfl

/-- Renaming a mark in front gives it the first name and moves the others by one. -/
theorem rename_mark (name : Nat → β) (a : α) (cut : Cut α) :
    (cut.mark a).rename name = (cut.rename fun i => name (i + 1)).mark (name 0) := by
  simp [rename, mark, List.mapIdx_cons]

/-- Renamed marks are the names of their numbers. -/
theorem names_rename (name : Nat → β) (cut : Cut α) :
    (cut.rename name).names = (List.range cut.names.length).map name := by
  apply List.ext_getElem
  · simp [names, rename]
  · intro i hleft hright
    simp [names, rename]

/-- Renaming the marks keeps the texts between them. -/
theorem texts_rename (name : Nat → β) (cut : Cut α) : (cut.rename name).texts = cut.texts := by
  apply List.ext_getElem
  · simp [texts, rename]
  · intro i hleft hright
    simp [texts, rename]

/-- A cut is known from its first text, its marks and the texts after them. -/
theorem ext_of_names {cut other : Cut α} (hbefore : cut.before = other.before)
    (hnames : cut.names = other.names) (htexts : cut.texts = other.texts) : cut = other := by
  rcases cut with ⟨before, marks⟩
  rcases other with ⟨before', marks'⟩
  have hfst : marks.map Prod.fst = marks'.map Prod.fst := hnames
  have hsnd : marks.map Prod.snd = marks'.map Prod.snd := htexts
  have hmarks : marks = marks' := by
    rw [← List.zip_unzip marks, ← List.zip_unzip marks', List.unzip_eq_map, List.unzip_eq_map,
      hfst, hsnd]
  rw [hmarks]
  exact congrArg (Cut.mk · marks') hbefore

end Cut

/-! ## Tokens of a text -/

namespace Placeholder

/-- The text after a sigil that it starts with. -/
def dropSigil : List Char → List Char → Option (List Char)
  | [], text => some text
  | _ :: _, [] => none
  | s :: sigil, c :: text => if s = c then dropSigil sigil text else none

/-- The token that a text starts with, a sigil and as many digits as follow it, and the
text after it. -/
def readToken (sigil text : List Char) : Option (List Char × List Char) :=
  match dropSigil sigil text with
  | none => none
  | some rest =>
    if (rest.takeWhile Char.isDigit).isEmpty then none
    else some (sigil ++ rest.takeWhile Char.isDigit, rest.dropWhile Char.isDigit)

/-- Dropping a sigil leaves no more text than there was. -/
theorem length_dropSigil_le {sigil text rest : List Char}
    (h : dropSigil sigil text = some rest) : rest.length ≤ text.length := by
  fun_induction dropSigil sigil text with
  | case1 text => simp_all
  | case2 => simp at h
  | case3 sigil c text ih => exact Nat.le_succ_of_le (ih h)
  | case4 => simp at h

/-- Reading a token takes at least one character. -/
theorem length_readToken_lt {sigil text token after : List Char}
    (h : readToken sigil text = some (token, after)) : after.length < text.length := by
  unfold readToken at h
  split at h
  · simp at h
  · rename_i rest hrest
    split at h
    · simp at h
    · rename_i hdigits
      rcases Prod.mk.inj (Option.some.inj h) with ⟨_, rfl⟩
      have hle := length_dropSigil_le hrest
      have hsum := congrArg List.length (rest.takeWhile_append_dropWhile (p := Char.isDigit))
      have hpos : 0 < (rest.takeWhile Char.isDigit).length := by
        rw [List.length_pos_iff]
        simpa using hdigits
      rw [List.length_append] at hsum
      omega

/-- A text cut at its tokens, read from left to right. -/
def scan (sigil : List Char) (text : List Char) : Cut (List Char) :=
  match text with
  | [] => ⟨[], []⟩
  | c :: rest =>
    match _found : readToken sigil (c :: rest) with
    | some (token, after) => (scan sigil after).mark token
    | none => (scan sigil rest).prepend [c]
termination_by text.length
decreasing_by
  · exact length_readToken_lt ‹_›
  · exact Nat.lt_succ_self rest.length

/-- The tokens of a text, from left to right. -/
def tokens (sigil text : List Char) : List (List Char) := (scan sigil text).names

@[simp]
theorem scan_nil (sigil : List Char) : scan sigil [] = ⟨[], []⟩ := by
  rw [scan]

/-- A text that starts with a token is cut there. -/
theorem scan_of_readToken {sigil text token after : List Char}
    (h : readToken sigil text = some (token, after)) :
    scan sigil text = (scan sigil after).mark token := by
  cases text with
  | nil => exact absurd (length_readToken_lt h) (Nat.not_lt_zero _)
  | cons c rest =>
    rw [scan]
    split
    · rename_i h'
      rcases Prod.mk.inj (Option.some.inj (h.symm.trans h')) with ⟨rfl, rfl⟩
      rfl
    · rename_i h'
      cases h.symm.trans h'

/-- A character at which no token starts belongs to the text before the next mark. -/
theorem scan_of_not_readToken {sigil rest : List Char} {c : Char}
    (h : readToken sigil (c :: rest) = none) :
    scan sigil (c :: rest) = (scan sigil rest).prepend [c] := by
  rw [scan]
  split
  · rename_i h'
    cases h.symm.trans h'
  · rfl

/-- A character other than the first of the sigil starts no token. -/
theorem readToken_of_ne {s c : Char} (h : s ≠ c) (sigil rest : List Char) :
    readToken (s :: sigil) (c :: rest) = none := by
  simp [readToken, dropSigil, h]

/-- A text without the first character of the sigil is passed over. -/
theorem scan_append_of_notMem {s : Char} {code : List Char} (h : s ∉ code)
    (sigil rest : List Char) :
    scan (s :: sigil) (code ++ rest) = (scan (s :: sigil) rest).prepend code := by
  induction code with
  | nil => rfl
  | cons c code ih =>
    have hne : s ≠ c := fun heq => h (by simp [heq])
    have hcode : s ∉ code := fun hmem => h (by simp [hmem])
    rw [List.cons_append, scan_of_not_readToken (readToken_of_ne hne sigil _), ih hcode]
    rfl

/-- A text behind a sigil is left by dropping the sigil. -/
theorem dropSigil_append (sigil rest : List Char) :
    dropSigil sigil (sigil ++ rest) = some rest := by
  induction sigil with
  | nil => rfl
  | cons s sigil ih => simpa [dropSigil] using ih

/-- A sigil with digits that no digit follows is one token. -/
theorem scan_token {sigil digits rest : List Char} (hne : digits ≠ [])
    (hdigits : ∀ d ∈ digits, d.isDigit = true) (hrest : ∀ c ∈ rest.head?, c.isDigit = false) :
    scan sigil (sigil ++ digits ++ rest) = (scan sigil rest).mark (sigil ++ digits) := by
  have hstop : rest.takeWhile Char.isDigit = [] ∧ rest.dropWhile Char.isDigit = rest := by
    cases rest with
    | nil => exact ⟨rfl, rfl⟩
    | cons c rest =>
      have hc := hrest c (by simp)
      simp [hc]
  apply scan_of_readToken
  rw [readToken, List.append_assoc, dropSigil_append]
  simp [List.takeWhile_append_of_pos hdigits, List.dropWhile_append_of_pos hdigits, hstop, hne]

/-! ## Tokens and blanks -/

/-- A digit is no blank. -/
theorem isDigit_of_isBlank {c : Char} (h : Text.isBlank c = true) : c.isDigit = false := by
  rcases Text.inRanges_iff.mp h with ⟨range, hrange, hlow, hhigh⟩
  have hout : range.2 < 48 ∨ 57 < range.1 := by
    have hall : ∀ range ∈ Text.blankRanges, range.2 < 48 ∨ 57 < range.1 := by decide
    exact hall range hrange
  rw [Bool.eq_false_iff]
  intro hdigit
  simp only [Char.isDigit, Bool.and_eq_true, decide_eq_true_eq] at hdigit
  have hge : 48 ≤ c.toNat := hdigit.1
  have hle : c.toNat ≤ 57 := hdigit.2
  omega

/-- A sigil without blanks does not reach over a blank. -/
theorem dropSigil_append_blank {sigil : List Char}
    (hsigil : ∀ s ∈ sigil, Text.isBlank s = false) (text : List Char) {c : Char}
    (hc : Text.isBlank c = true) (rest : List Char) :
    dropSigil sigil (text ++ c :: rest) = (dropSigil sigil text).map (· ++ c :: rest) := by
  fun_induction dropSigil sigil text with
  | case1 text => rfl
  | case2 s sigil =>
    have hne : s ≠ c := by
      rintro rfl
      simp [hsigil s (by simp)] at hc
    simp [dropSigil, hne]
  | case3 sigil s text ih =>
    rw [List.cons_append, dropSigil, if_pos rfl]
    exact ih fun d hd => hsigil d (by simp [hd])
  | case4 s sigil d text hne =>
    rw [List.cons_append, dropSigil, if_neg hne]
    rfl

/-- A run of digits does not reach over a character that is none. -/
theorem digits_append {c : Char} (hc : c.isDigit = false) (text rest : List Char) :
    (text ++ c :: rest).takeWhile Char.isDigit = text.takeWhile Char.isDigit ∧
      (text ++ c :: rest).dropWhile Char.isDigit = text.dropWhile Char.isDigit ++ c :: rest := by
  induction text with
  | nil => simp [hc]
  | cons d text ih =>
    by_cases hd : d.isDigit = true
    · simp [hd, ih]
    · simp [hd]

/-- A token does not reach over a blank. -/
theorem readToken_append_blank {sigil : List Char}
    (hsigil : ∀ s ∈ sigil, Text.isBlank s = false) (text : List Char) {c : Char}
    (hc : Text.isBlank c = true) (rest : List Char) :
    readToken sigil (text ++ c :: rest) =
      (readToken sigil text).map fun (token, after) => (token, after ++ c :: rest) := by
  rw [readToken, readToken, dropSigil_append_blank hsigil text hc rest]
  cases dropSigil sigil text with
  | none => rfl
  | some body =>
    rcases digits_append (isDigit_of_isBlank hc) body rest with ⟨htake, hdrop⟩
    simp only [Option.map_some, htake, hdrop]
    split <;> rfl

/-- The tokens on the two sides of a blank are found apart. -/
theorem tokens_append_blank {sigil : List Char} (hne : sigil ≠ [])
    (hsigil : ∀ s ∈ sigil, Text.isBlank s = false) (text : List Char) (c : Char)
    (rest : List Char) (hc : Text.isBlank c = true) :
    tokens sigil (text ++ c :: rest) = tokens sigil text ++ tokens sigil rest := by
  -- Along the scan of the text in front: no step of it looks past the blank.
  fun_induction scan sigil text with
  | case1 =>
    rcases List.exists_cons_of_ne_nil hne with ⟨s, sigil, rfl⟩
    have hs : s ≠ c := by
      rintro rfl
      simp [hsigil s (by simp)] at hc
    rw [List.nil_append, tokens, scan_of_not_readToken (readToken_of_ne hs sigil rest), tokens,
      scan_nil]
    rfl
  | case2 d text token after h ih =>
    have hlong := readToken_append_blank hsigil (d :: text) hc rest
    rw [h, Option.map_some] at hlong
    have hleft := scan_of_readToken hlong
    have hright := scan_of_readToken h
    simp only [tokens] at ih
    rw [tokens, hleft, tokens, hright, Cut.names_mark, Cut.names_mark, ih, tokens,
      List.cons_append]
  | case3 d text h ih =>
    have hlong := readToken_append_blank hsigil (d :: text) hc rest
    rw [h, Option.map_none, List.cons_append] at hlong
    have hleft := scan_of_not_readToken hlong
    have hright := scan_of_not_readToken h
    simp only [tokens] at ih
    rw [tokens, List.cons_append, hleft, tokens, hright, Cut.names_prepend, Cut.names_prepend,
      ih, tokens]

/-- Collapsing blanks keeps the tokens of every text. -/
theorem tokens_collapse {sigil : List Char} (hne : sigil ≠ [])
    (hsigil : ∀ s ∈ sigil, Text.isBlank s = false) (text : String) :
    tokens sigil (Text.collapseBlanks text).toList = tokens sigil text.toList := by
  rw [Text.toList_collapseBlanks]
  apply Text.eq_of_spaced (tokens sigil)
  · simp [tokens, Cut.names]
  · exact tokens_append_blank hne hsigil

end Placeholder

end SqlFragments
