import SqlFragments.Text.Ranges

/-!
# Blank characters and the words between them

A character is blank when it has the Unicode property `White_Space`.  A text is
a sequence of words, the maximal runs of characters that are not blank, and its
spaced form writes these words with one space between neighbours.

Main results:

- `words_append_blank`: a blank always ends a word.
- `mem_words`: every word is non-empty and free of blanks.
- `toList_collapseBlanks`: words that are written one by one make the spaced text.
-/

namespace SqlFragments.Text

/-! ## The property `White_Space` -/

/-- The ranges of code points with the Unicode property `White_Space`, both ends
included, in increasing order. -/
def blankRanges : List (Nat × Nat) :=
  [(0x9, 0xD), (0x20, 0x20), (0x85, 0x85), (0xA0, 0xA0), (0x1680, 0x1680), (0x2000, 0x200A),
    (0x2028, 0x2029), (0x202F, 0x202F), (0x205F, 0x205F), (0x3000, 0x3000)]

/-- A character with the Unicode property `White_Space`. -/
def isBlank (c : Char) : Bool := inRanges blankRanges c

/-! ## Words -/

/-- Puts a word, if it is one, before others: no word is empty. -/
def closeWord (word : List Char) (others : List (List Char)) : List (List Char) :=
  if word.isEmpty then others else word :: others

/-- Puts a character in front of a run of characters and the words after it; a blank ends
the run. -/
def addToRun (c : Char) (found : List Char × List (List Char)) : List Char × List (List Char) :=
  if isBlank c then ([], closeWord found.1 found.2) else (c :: found.1, found.2)

/-- The run of characters that a text starts with, up to its first blank, and the
words after that run. -/
def splitRun (text : List Char) : List Char × List (List Char) := text.foldr addToRun ([], [])

/-- The words of a text: its maximal runs of characters that are not blank. -/
def words (text : List Char) : List (List Char) :=
  closeWord (splitRun text).1 (splitRun text).2

@[simp]
theorem splitRun_nil : splitRun [] = ([], []) := rfl

theorem splitRun_cons (c : Char) (rest : List Char) :
    splitRun (c :: rest) =
      if isBlank c then ([], words rest) else (c :: (splitRun rest).1, (splitRun rest).2) := rfl

@[simp]
theorem words_nil : words [] = [] := rfl

@[simp]
theorem words_cons_blank {c : Char} (h : isBlank c = true) (rest : List Char) :
    words (c :: rest) = words rest := by
  rw [words, splitRun_cons, if_pos h]
  simp [closeWord]

theorem splitRun_append_blank (text : List Char) {c : Char} (h : isBlank c = true)
    (rest : List Char) :
    splitRun (text ++ c :: rest) = ((splitRun text).1, (splitRun text).2 ++ words rest) := by
  induction text with
  | nil => simp [splitRun_cons, h]
  | cons d text ih =>
    simp only [List.cons_append, splitRun_cons, words, ih]
    split
    · simp only [closeWord]
      split <;> simp
    · rfl

/-- A blank ends the word before it and starts none. -/
theorem words_append_blank (text : List Char) {c : Char} (h : isBlank c = true)
    (rest : List Char) : words (text ++ c :: rest) = words text ++ words rest := by
  simp only [words, splitRun_append_blank text h, closeWord]
  split <;> simp

theorem splitRun_noBlank (text : List Char) :
    (∀ c ∈ (splitRun text).1, isBlank c = false) ∧
      ∀ word ∈ (splitRun text).2, word ≠ [] ∧ ∀ c ∈ word, isBlank c = false := by
  induction text with
  | nil => simp
  | cons d text ih =>
    simp only [splitRun_cons, words]
    split
    · refine ⟨by simp, fun word hword => ?_⟩
      simp only [closeWord] at hword
      split at hword
      · exact ih.2 word hword
      · rename_i hrun
        rcases List.mem_cons.mp hword with rfl | hword
        · exact ⟨by simpa using hrun, ih.1⟩
        · exact ih.2 word hword
    · rename_i hd
      exact ⟨by simpa [hd] using ih.1, ih.2⟩

/-- Every word is non-empty and free of blanks. -/
theorem mem_words {text word : List Char} (h : word ∈ words text) :
    word ≠ [] ∧ ∀ c ∈ word, isBlank c = false := by
  have hrun := splitRun_noBlank text
  simp only [words, closeWord] at h
  split at h
  · exact hrun.2 word h
  · rename_i hne
    rcases List.mem_cons.mp h with rfl | h
    · exact ⟨by simpa using hne, hrun.1⟩
    · exact hrun.2 word h

/-! ## Spaced and trimmed texts -/

/-- The words of a text with one space between neighbours. -/
def spaced (text : List Char) : List Char :=
  [' '].intercalate (words text)

/-- Writes a word after a text, with a space between them unless nothing is written yet. -/
def appendWord (text : String) (word : List Char) : String :=
  (if text.isEmpty then text else text.push ' ') ++ String.ofList word

/-- The text with every run of blanks between words made one space, and with the
blanks at its ends removed: its words are written one after the other. -/
def collapseBlanks (text : String) : String := (words text.toList).foldl appendWord ""

/-- Behind a text that is not empty, every further word comes after a space. -/
theorem toList_foldl_appendWord {text : String} (h : text ≠ "") (others : List (List Char)) :
    (others.foldl appendWord text).toList = text.toList ++ others.flatMap (' ' :: ·) := by
  induction others generalizing text with
  | nil => simp
  | cons word others ih =>
    have hword : (appendWord text word).toList = text.toList ++ ' ' :: word := by
      simp [appendWord, h]
    have hne : appendWord text word ≠ "" := by
      intro hempty
      simp [hempty] at hword
    rw [List.foldl_cons, ih hne, hword, List.flatMap_cons, List.append_assoc]

/-- The first of joined words stands alone, and every other one after a space. -/
theorem intercalate_space_cons (word : List Char) (others : List (List Char)) :
    [' '].intercalate (word :: others) = word ++ others.flatMap (' ' :: ·) := by
  induction others generalizing word with
  | nil => simp
  | cons next others ih =>
    rw [List.intercalate_cons_cons, ih, List.flatMap_cons]
    simp

/-- No word is empty, so the spaces stand between neighbours and nowhere else. -/
@[simp]
theorem toList_collapseBlanks (text : String) :
    (collapseBlanks text).toList = spaced text.toList := by
  have hmem : ∀ word ∈ words text.toList, word ≠ [] := fun word h => (mem_words h).1
  rw [collapseBlanks, spaced]
  cases hwords : words text.toList with
  | nil => rfl
  | cons word others =>
    rw [hwords] at hmem
    have hne : String.ofList word ≠ "" := by
      intro hempty
      exact hmem word (by simp) (by simpa using congrArg String.toList hempty)
    have hfirst : appendWord "" word = String.ofList word := by simp [appendWord]
    rw [List.foldl_cons, hfirst, toList_foldl_appendWord hne, String.toList_ofList,
      intercalate_space_cons]

/-- The text without the blanks at its ends. -/
def trimBlanks (text : List Char) : List Char :=
  ((text.dropWhile isBlank).reverse.dropWhile isBlank).reverse

end SqlFragments.Text
