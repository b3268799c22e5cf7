import Mathlib.Data.List.TakeWhile
import SqlFragments.Text.Blank

/-!
# Spaced and trimmed texts

Making blanks single spaces keeps the words of a text.  So whatever is read off a
text word by word, and nothing of it across a blank, is read off the spaced text
just as well.  Trimming takes the blanks at both ends away and nothing else.

Main results:

- `mem_intercalate`: what is in joined texts.
- `words_intercalate`: words with a space between neighbours are read back.
- `words_spaced`: a spaced text has the words of the text.
- `eq_of_spaced`: what respects blanks does not see the spacing.
- `exists_trimBlanks`, `trimBlanks_eq`: a trimmed text and the blanks around it.
-/

namespace SqlFragments.Text

/-! ## Joined texts -/

/-- What is in joined texts is in one of them or in what joins them. -/
theorem mem_intercalate {α : Type} {x : α} {separator : List α} {texts : List (List α)}
    (h : x ∈ separator.intercalate texts) : x ∈ separator ∨ ∃ text ∈ texts, x ∈ text := by
  induction texts with
  | nil => simp at h
  | cons text others ih =>
    cases others with
    | nil =>
      rw [List.intercalate_singleton] at h
      exact .inr ⟨text, by simp, h⟩
    | cons next others =>
      rw [List.intercalate_cons_cons, List.mem_append, List.mem_append] at h
      rcases h with (h | h) | h
      · exact .inr ⟨text, by simp, h⟩
      · exact .inl h
      · rcases ih h with hseparator | ⟨other, hother, hx⟩
        · exact .inl hseparator
        · exact .inr ⟨other, List.mem_cons_of_mem text hother, hx⟩

/-- Two rows of joined texts are joined by what joins the texts, if both have some. -/
theorem intercalate_append {α : Type} (separator : List α) {texts others : List (List α)}
    (htexts : texts ≠ []) (hothers : others ≠ []) :
    separator.intercalate (texts ++ others) =
      separator.intercalate texts ++ (separator ++ separator.intercalate others) := by
  induction texts with
  | nil => exact absurd rfl htexts
  | cons text texts ih =>
    by_cases hlast : texts = []
    · subst hlast
      rcases List.exists_cons_of_ne_nil hothers with ⟨next, others, rfl⟩
      simp [List.intercalate_cons_cons]
    · have hjoin := ih hlast
      rcases List.exists_cons_of_ne_nil hlast with ⟨next, texts, rfl⟩
      rw [List.cons_append] at hjoin
      rw [List.cons_append, List.cons_append, List.intercalate_cons_cons, hjoin,
        List.intercalate_cons_cons]
      simp

/-! ## Texts without blanks -/

/-- A text without blanks is one run. -/
theorem splitRun_of_noBlank {text : List Char} (h : ∀ c ∈ text, isBlank c = false) :
    splitRun text = (text, []) := by
  induction text with
  | nil => rfl
  | cons c rest ih =>
    have hc : isBlank c = false := h c (by simp)
    have hrest := ih fun d hd => h d (by simp [hd])
    rw [splitRun_cons, hrest]
    simp [hc]

/-- A text without blanks is one word. -/
theorem words_of_noBlank {text : List Char} (hne : text ≠ [])
    (h : ∀ c ∈ text, isBlank c = false) : words text = [text] := by
  rw [words, splitRun_of_noBlank h]
  simp [closeWord, hne]

/-- A text that starts with no blank has a word. -/
theorem words_ne_nil {c : Char} (hc : isBlank c = false) (rest : List Char) :
    words (c :: rest) ≠ [] := by
  simp [words, splitRun_cons, hc, closeWord]

/-- Induction over a text by its blanks: a text has none, or a first one. -/
theorem blank_induction {motive : List Char → Prop}
    (word : ∀ text, (∀ c ∈ text, isBlank c = false) → motive text)
    (blank : ∀ text c rest, (∀ d ∈ text, isBlank d = false) → isBlank c = true →
      motive rest → motive (text ++ c :: rest)) (text : List Char) : motive text := by
  -- The characters passed since the last blank are kept apart.
  have hrun : ∀ rest run : List Char, (∀ c ∈ run, isBlank c = false) →
      motive (run ++ rest) := by
    intro rest
    induction rest with
    | nil =>
      intro run h
      rw [List.append_nil]
      exact word run h
    | cons c rest ih =>
      intro run h
      by_cases hc : isBlank c = true
      · exact blank run c rest h hc (ih [] (by simp))
      · rw [List.append_cons]
        apply ih
        intro d hd
        rcases List.mem_append.mp hd with hd | hd
        · exact h d hd
        · rw [List.mem_singleton.mp hd]
          exact Bool.eq_false_iff.mpr hc
  exact hrun text [] (by simp)

/-! ## Words and spaces -/

/-- Words with a space between neighbours are read back. -/
theorem words_intercalate {found : List (List Char)}
    (h : ∀ word ∈ found, word ≠ [] ∧ ∀ c ∈ word, isBlank c = false) :
    words ([' '].intercalate found) = found := by
  induction found with
  | nil => rfl
  | cons word others ih =>
    have hword := h word (by simp)
    have hothers := ih fun w hw => h w (by simp [hw])
    cases others with
    | nil =>
      rw [List.intercalate_singleton]
      exact words_of_noBlank hword.1 hword.2
    | cons next others =>
      have hspace : isBlank ' ' = true := by decide
      rw [List.intercalate_cons_cons, List.append_assoc, List.singleton_append,
        words_append_blank word hspace, hothers, words_of_noBlank hword.1 hword.2]
      rfl

/-- A spaced text has the words of the text. -/
theorem words_spaced (text : List Char) : words (spaced text) = words text :=
  words_intercalate fun _ hword => mem_words hword

/-- A text without blanks is spaced already. -/
theorem spaced_of_noBlank {text : List Char} (h : ∀ c ∈ text, isBlank c = false) :
    spaced text = text := by
  by_cases hne : text = []
  · rw [hne]
    rfl
  · rw [spaced, words_of_noBlank hne h, List.intercalate_singleton]

/-- What is read off a text so that a blank gives nothing and ends all before it is read
off the words of the text. -/
theorem eq_flatMap_words {α : Type} {read : List Char → List α} (hnil : read [] = [])
    (hblank : ∀ text c rest, isBlank c = true → read (text ++ c :: rest) = read text ++ read rest)
    (text : List Char) : read text = (words text).flatMap read := by
  have hword : ∀ text, (∀ c ∈ text, isBlank c = false) → read text = (words text).flatMap read := by
    intro text h
    by_cases hne : text = []
    · rw [hne, hnil]
      rfl
    · rw [words_of_noBlank hne h]
      simp
  induction text using blank_induction with
  | word text h => exact hword text h
  | blank text c rest h hc ih =>
    rw [hblank text c rest hc, words_append_blank text hc, List.flatMap_append, ← ih,
      ← hword text h]

/-- What respects blanks does not see the spacing. -/
theorem eq_of_spaced {α : Type} (read : List Char → List α) (hnil : read [] = [])
    (hblank : ∀ text c rest, isBlank c = true → read (text ++ c :: rest) = read text ++ read rest)
    (text : List Char) : read (spaced text) = read text := by
  rw [eq_flatMap_words hnil hblank, words_spaced, ← eq_flatMap_words hnil hblank]

/-- A blank with words on both sides is one space of the spaced text. -/
theorem spaced_append_blank {text : List Char} {c : Char} {rest : List Char}
    (htext : words text ≠ []) (hc : isBlank c = true) (hrest : words rest ≠ []) :
    spaced (text ++ c :: rest) = spaced text ++ ' ' :: spaced rest := by
  rw [spaced, words_append_blank text hc, intercalate_append [' '] htext hrest]
  rfl

/-! ## Trimmed texts -/

/-- Neither the first nor the last character of a text is blank. -/
def IsTrimmed (text : List Char) : Prop :=
  (∀ c ∈ text.head?, isBlank c = false) ∧ ∀ c ∈ text.getLast?, isBlank c = false

/-- What is left after blanks are dropped from the front does not start with one. -/
theorem head_dropWhile_isBlank {text : List Char} {c : Char}
    (h : c ∈ (text.dropWhile isBlank).head?) : isBlank c = false := by
  have hne : text.dropWhile isBlank ≠ [] := by
    intro hnil
    simp [hnil] at h
  have hhead := List.head_dropWhile_not isBlank hne
  rw [List.head?_eq_some_head hne, Option.mem_some_iff] at h
  rwa [h] at hhead

/-- A trimmed text has lost blanks at its ends and nothing else. -/
theorem exists_trimBlanks (text : List Char) :
    ∃ before after, text = before ++ trimBlanks text ++ after ∧
      (∀ c ∈ before, isBlank c = true) ∧ ∀ c ∈ after, isBlank c = true := by
  have hfront := List.takeWhile_append_dropWhile (p := isBlank) (l := text)
  have hback := List.takeWhile_append_dropWhile (p := isBlank)
    (l := (text.dropWhile isBlank).reverse)
  refine ⟨text.takeWhile isBlank, ((text.dropWhile isBlank).reverse.takeWhile isBlank).reverse,
    ?_, ?_, ?_⟩
  · have hrest := congrArg List.reverse hback
    rw [List.reverse_append, List.reverse_reverse] at hrest
    rw [trimBlanks, List.append_assoc, hrest, hfront]
  · intro c hc
    exact List.mem_takeWhile_imp hc
  · intro c hc
    exact List.mem_takeWhile_imp (List.mem_reverse.mp hc)

/-- Trimming leaves no blank at either end. -/
theorem isTrimmed_trimBlanks (text : List Char) : IsTrimmed (trimBlanks text) := by
  constructor
  · intro c hc
    obtain ⟨before, hbefore⟩ :=
      List.dropWhile_suffix (l := (text.dropWhile isBlank).reverse) isBlank
    have hfront : text.dropWhile isBlank = trimBlanks text ++ before.reverse := by
      rw [trimBlanks, ← List.reverse_append, hbefore, List.reverse_reverse]
    have hhead : c ∈ (text.dropWhile isBlank).head? := by
      rw [hfront, List.head?_append, Option.mem_def.mp hc]
      rfl
    exact head_dropWhile_isBlank hhead
  · intro c hc
    rw [trimBlanks, List.getLast?_reverse] at hc
    exact head_dropWhile_isBlank hc

/-- Blanks around a trimmed text are what trimming takes away. -/
theorem trimBlanks_eq {before text after : List Char} (hbefore : ∀ c ∈ before, isBlank c = true)
    (hafter : ∀ c ∈ after, isBlank c = true) (h : IsTrimmed text) :
    trimBlanks (before ++ text ++ after) = text := by
  have hkeep : ∀ {l : List Char}, (∀ c ∈ l.head?, isBlank c = false) → l.dropWhile isBlank = l := by
    intro l hl
    cases l with
    | nil => rfl
    | cons c rest => simp [hl c rfl]
  rw [trimBlanks, List.append_assoc, List.dropWhile_append_of_pos hbefore]
  by_cases hnil : text = []
  · subst hnil
    have hall : after.dropWhile isBlank = [] := List.dropWhile_eq_nil_iff.mpr hafter
    simp [hall]
  · have hhead : ∀ c ∈ (text ++ after).head?, isBlank c = false := by
      intro c hc
      obtain ⟨d, rest, rfl⟩ := List.exists_cons_of_ne_nil hnil
      exact h.1 c hc
    have hreverse : ∀ c ∈ after.reverse, isBlank c = true := fun c hc =>
      hafter c (List.mem_reverse.mp hc)
    have hlast : ∀ c ∈ text.reverse.head?, isBlank c = false := by
      intro c hc
      rw [List.head?_reverse] at hc
      exact h.2 c hc
    rw [hkeep hhead, List.reverse_append, List.dropWhile_append_of_pos hreverse, hkeep hlast,
      List.reverse_reverse]

end SqlFragments.Text
