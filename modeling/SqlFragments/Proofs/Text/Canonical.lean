import Mathlib.Data.List.Chain
import Mathlib.Data.List.Forall2
import SqlFragments.Proofs.Text.Spacing

/-!
# The canonical form of a text

A text is its words with blanks around them, and the words are the longest runs of
characters that are not blank.  Of all texts with the same words exactly one has
single spaces between neighbouring words and no other blank; the spaced text is
this one.  Each part of a text stands in the spaced text with its own words, so a
part without blanks stands there unchanged.

Main results:

- `hasWords_iff`: the words that are found are the maximal runs of the text.
- `isSpaced_spaced` and `IsSpaced.spaced_eq`: a text is spaced exactly when spacing
  leaves it alone.
- `exists_spaced_parts`: the spaced text is divided as the text is.
-/

namespace SqlFragments.Text

/-! ## Words as runs -/

/-- A text has words: before each of them stand blanks, it goes on to the next blank or
to the end of the text, and what follows the last one is blank. -/
inductive HasWords : List Char → List (List Char) → Prop
  | blank {gap : List Char} (hgap : ∀ c ∈ gap, isBlank c = true) : HasWords gap []
  | word {gap word rest : List Char} {others : List (List Char)}
      (hgap : ∀ c ∈ gap, isBlank c = true) (hne : word ≠ [])
      (hword : ∀ c ∈ word, isBlank c = false) (hend : ∀ c ∈ rest.head?, isBlank c = true)
      (hrest : HasWords rest others) : HasWords (gap ++ word ++ rest) (word :: others)

/-- Blanks in front of a text bring no words. -/
theorem words_blanks_append {gap : List Char} (hgap : ∀ c ∈ gap, isBlank c = true)
    (text : List Char) : words (gap ++ text) = words text := by
  induction gap with
  | nil => rfl
  | cons c gap ih =>
    rw [List.cons_append, words_cons_blank (hgap c (by simp))]
    exact ih fun d hd => hgap d (by simp [hd])

/-- A blank in front of a text joins the blanks before its first word. -/
theorem HasWords.cons_blank {c : Char} (hc : isBlank c = true) {text : List Char}
    {found : List (List Char)} (h : HasWords text found) : HasWords (c :: text) found := by
  cases h with
  | blank hgap => exact .blank (List.forall_mem_cons.mpr ⟨hc, hgap⟩)
  | word hgap hne hword hend hrest =>
    exact .word (List.forall_mem_cons.mpr ⟨hc, hgap⟩) hne hword hend hrest

/-- The words of a text are unique. -/
theorem HasWords.words_eq {text : List Char} {found : List (List Char)}
    (h : HasWords text found) : words text = found := by
  induction h with
  | @blank gap hgap =>
    rw [← List.append_nil gap, words_blanks_append hgap]
    rfl
  | @word gap word rest others hgap hne hword hend _ ih =>
    rw [List.append_assoc, words_blanks_append hgap]
    cases rest with
    | nil =>
      rw [List.append_nil, words_of_noBlank hne hword, ← ih]
      rfl
    | cons c rest =>
      have hc : isBlank c = true := hend c rfl
      rw [words_cons_blank hc] at ih
      rw [words_append_blank word hc, words_of_noBlank hne hword, ih]
      rfl

/-- Every text has the words that are cut from it. -/
theorem hasWords_words (text : List Char) : HasWords text (words text) := by
  induction text using blank_induction with
  | word text h =>
    by_cases hne : text = []
    · subst hne
      exact .blank (by simp)
    · have hend : HasWords ([] ++ text ++ []) [text] :=
        .word (by simp) hne h (by simp) (.blank (by simp))
      rw [words_of_noBlank hne h]
      simpa using hend
  | blank text c rest h hc ih =>
    rw [words_append_blank text hc]
    by_cases hne : text = []
    · subst hne
      exact ih.cons_blank hc
    · have hend : ∀ d ∈ (c :: rest).head?, isBlank d = true := by simpa using hc
      rw [words_of_noBlank hne h]
      have hgap : ∀ d ∈ ([] : List Char), isBlank d = true := by simp
      exact .word hgap hne h hend (ih.cons_blank hc)

/-- The words that are found are the maximal runs of the text. -/
theorem hasWords_iff {text : List Char} {found : List (List Char)} :
    HasWords text found ↔ words text = found :=
  ⟨HasWords.words_eq, fun h => h ▸ hasWords_words text⟩

/-! ## Spaced texts -/

/-- Every blank of the text is a space, none is at an end, and no two are neighbours. -/
structure IsSpaced (text : List Char) : Prop where
  space : ∀ c ∈ text, isBlank c = true → c = ' '
  trimmed : IsTrimmed text
  apart : text.IsChain fun c d => isBlank c = false ∨ isBlank d = false

/-- Two neighbours of which the first is not blank may stand in a spaced text. -/
theorem isChain_of_noBlank {text : List Char} (h : ∀ c ∈ text, isBlank c = false) :
    text.IsChain fun c d => isBlank c = false ∨ isBlank d = false := by
  induction text with
  | nil => exact .nil
  | cons c text ih =>
    have hrest := ih fun d hd => h d (by simp [hd])
    exact hrest.cons fun d _ => .inl (h c (by simp))

/-- A text without blanks is spaced. -/
theorem isSpaced_of_noBlank {text : List Char} (h : ∀ c ∈ text, isBlank c = false) :
    IsSpaced text where
  space := fun c hc hblank => by simp [h c hc] at hblank
  trimmed := ⟨fun c hc => h c (List.mem_of_mem_head? hc),
    fun c hc => h c (List.mem_of_mem_getLast? hc)⟩
  apart := isChain_of_noBlank h

/-- A word, a space and a spaced text that is not empty make a spaced text. -/
theorem IsSpaced.append_space {word text : List Char} (hne : word ≠ [])
    (hword : ∀ c ∈ word, isBlank c = false) (h : IsSpaced text) (htext : text ≠ []) :
    IsSpaced (word ++ ' ' :: text) := by
  have hfirst : ∀ c ∈ text.head?, isBlank c = false := h.trimmed.1
  refine ⟨?space, ⟨?head, ?last⟩, ?apart⟩
  case space =>
    intro c hc hblank
    rcases List.mem_append.mp hc with hc | hc
    · simp [hword c hc] at hblank
    · rcases List.mem_cons.mp hc with rfl | hc
      · rfl
      · exact h.space c hc hblank
  case head =>
    intro c hc
    rw [List.head?_append_of_ne_nil _ hne] at hc
    exact hword c (List.mem_of_mem_head? hc)
  case last =>
    intro c hc
    rw [List.getLast?_append_of_ne_nil _ (List.cons_ne_nil _ _), List.getLast?_cons_of_ne_nil htext]
      at hc
    exact h.trimmed.2 c hc
  case apart =>
    have hspace : (' ' :: text).IsChain fun c d => isBlank c = false ∨ isBlank d = false :=
      h.apart.cons fun d hd => .inr (hfirst d hd)
    refine (isChain_of_noBlank hword).append hspace fun c hc d _ => .inl ?_
    exact hword c (List.mem_of_mem_getLast? hc)

/-- A spaced text that goes on after a blank goes on with a spaced text that starts with a
word, and the blank is a space after a word. -/
theorem IsSpaced.of_append_blank {text : List Char} {c : Char} {rest : List Char}
    (h : IsSpaced (text ++ c :: rest)) (hc : isBlank c = true) :
    c = ' ' ∧ text ≠ [] ∧ rest ≠ [] ∧ IsSpaced rest := by
  have hchain := List.isChain_append.mp h.apart
  have htext : text ≠ [] := by
    rintro rfl
    simp [h.trimmed.1 c rfl] at hc
  have hrest : rest ≠ [] := by
    rintro rfl
    have hlast := h.trimmed.2 c (by simp)
    simp [hlast] at hc
  refine ⟨h.space c (by simp) hc, htext, hrest, ?space, ⟨?head, ?last⟩, ?apart⟩
  case space => exact fun d hd => h.space d (by simp [hd])
  case head =>
    intro d hd
    have hnext := (List.isChain_cons.mp hchain.2.1).1 d hd
    exact hnext.resolve_left (by simp [hc])
  case last =>
    intro d hd
    refine h.trimmed.2 d ?_
    rwa [List.getLast?_append_of_ne_nil _ (List.cons_ne_nil _ _),
      List.getLast?_cons_of_ne_nil hrest]
  case apart => exact (List.isChain_cons.mp hchain.2.1).2

/-- A text without words is spaced to nothing. -/
theorem spaced_of_words_eq_nil {text : List Char} (h : words text = []) : spaced text = [] := by
  rw [spaced, h]
  rfl

/-- What has no words leaves nothing behind a blank. -/
theorem spaced_append_of_words_eq_nil (text : List Char) {c : Char} {rest : List Char}
    (hc : isBlank c = true) (hrest : words rest = []) :
    spaced (text ++ c :: rest) = spaced text := by
  rw [spaced, words_append_blank text hc, hrest, List.append_nil, spaced]

/-- Nothing is left of a text exactly if it has no words. -/
theorem spaced_eq_nil_iff {text : List Char} : spaced text = [] ↔ words text = [] := by
  refine ⟨fun h => ?_, spaced_of_words_eq_nil⟩
  rw [← words_spaced, h]
  rfl

/-- A spaced text is left alone. -/
theorem IsSpaced.spaced_eq {text : List Char} (h : IsSpaced text) : spaced text = text := by
  induction text using blank_induction with
  | word text hword => exact spaced_of_noBlank hword
  | blank text c rest hword hc ih =>
    obtain ⟨rfl, htext, hrest, hspaced⟩ := h.of_append_blank hc
    have heq := ih hspaced
    have hwords : words rest ≠ [] := by
      rw [← heq, ne_eq, spaced_eq_nil_iff] at hrest
      exact hrest
    rw [spaced_append_blank (by simp [words_of_noBlank htext hword]) hc hwords,
      spaced_of_noBlank hword, heq]

/-- Making blanks single spaces gives a spaced text. -/
theorem isSpaced_spaced (text : List Char) : IsSpaced (spaced text) := by
  induction text using blank_induction with
  | word text h =>
    rw [spaced_of_noBlank h]
    exact isSpaced_of_noBlank h
  | blank text c rest h hc ih =>
    by_cases htext : text = []
    · subst htext
      rw [List.nil_append, spaced, words_cons_blank hc]
      exact ih
    by_cases hrest : words rest = []
    · rw [spaced_append_of_words_eq_nil text hc hrest, spaced_of_noBlank h]
      exact isSpaced_of_noBlank h
    · rw [spaced_append_blank (by simp [words_of_noBlank htext h]) hc hrest, spaced_of_noBlank h]
      exact ih.append_space htext h (mt spaced_eq_nil_iff.mp hrest)

/-- Two texts are made the same exactly if they have the same words. -/
theorem spaced_eq_spaced_iff {text other : List Char} :
    spaced text = spaced other ↔ words text = words other := by
  constructor
  · intro h
    rw [← words_spaced, h, words_spaced]
  · intro h
    rw [spaced, spaced, h]

/-! ## Parts of a spaced text -/

/-- Whether there is a word in a text. -/
def hasWord (text : List Char) : Bool := text.any fun c => !isBlank c

/-- Whether a word stands right before what follows a text, given whether one stands right
before the text. -/
def endsWord (after : Bool) (text : List Char) : Bool := text.foldl (fun _ c => !isBlank c) after

/-- What a part of a text leaves in the spaced text: its words, and a space for a blank right
after a word if there is another word behind it.  A word may stand right before the part, and
there may be words behind the part. -/
def spacedPart (after follows : Bool) : List Char → List Char
  | [] => []
  | c :: rest =>
    if isBlank c then
      if after && (follows || hasWord rest) then ' ' :: spacedPart false follows rest
      else spacedPart false follows rest
    else c :: spacedPart true follows rest

/-- A text has no word when all of it is blank. -/
theorem hasWord_eq_false_iff {text : List Char} :
    hasWord text = false ↔ ∀ c ∈ text, isBlank c = true := by
  simp [hasWord]

/-- Joined texts have a word when one of them does. -/
theorem hasWord_append (text other : List Char) :
    hasWord (text ++ other) = (hasWord text || hasWord other) := List.any_append

/-- A text without words is cut into none. -/
theorem words_eq_nil_iff {text : List Char} : words text = [] ↔ hasWord text = false := by
  rw [hasWord_eq_false_iff, ← hasWords_iff]
  constructor
  · intro h
    cases h with
    | blank hgap => exact hgap
  · exact HasWords.blank

@[simp]
theorem endsWord_nil (after : Bool) : endsWord after [] = after := rfl

@[simp]
theorem endsWord_cons (after : Bool) (c : Char) (rest : List Char) :
    endsWord after (c :: rest) = endsWord (!isBlank c) rest := rfl

/-- A part without blanks is left as it is. -/
theorem spacedPart_of_noBlank {text : List Char} (h : ∀ c ∈ text, isBlank c = false)
    (after follows : Bool) : spacedPart after follows text = text := by
  induction text generalizing after with
  | nil => rfl
  | cons c text ih =>
    have hc : isBlank c = false := h c (by simp)
    rw [spacedPart, if_neg (by simp [hc]), ih fun d hd => h d (by simp [hd])]

/-- Of blanks at the end nothing is left. -/
theorem spacedPart_of_blank {text : List Char} (h : hasWord text = false) (after : Bool) :
    spacedPart after false text = [] := by
  induction text generalizing after with
  | nil => rfl
  | cons c text ih =>
    obtain ⟨hc, hrest⟩ := List.forall_mem_cons.mp (hasWord_eq_false_iff.mp h)
    have hword : hasWord text = false := hasWord_eq_false_iff.mpr hrest
    rw [spacedPart, if_pos hc, if_neg (by simp [hword]), ih hword]

/-- A part of two is left as the two are, one after the other. -/
theorem spacedPart_append (after follows : Bool) (text other : List Char) :
    spacedPart after follows (text ++ other) =
      spacedPart after (follows || hasWord other) text ++
        spacedPart (endsWord after text) follows other := by
  induction text generalizing after with
  | nil => rfl
  | cons c text ih =>
    have hfollows : (follows || hasWord (text ++ other)) =
        (follows || hasWord other || hasWord text) := by
      rw [hasWord_append, Bool.or_assoc, Bool.or_comm (hasWord text)]
    rw [List.cons_append, spacedPart, spacedPart, ih, ih, hfollows, endsWord_cons]
    cases isBlank c with
    | true =>
      rw [if_pos rfl, if_pos rfl]
      split_ifs <;> rfl
    | false => rfl

/-- A text without blanks ends in a word if it is not empty, and changes nothing if it is. -/
theorem endsWord_of_noBlank {text : List Char} (h : ∀ c ∈ text, isBlank c = false)
    (after : Bool) : endsWord after text = (after || !text.isEmpty) := by
  induction text generalizing after with
  | nil => simp
  | cons c text ih =>
    have hrest := ih (fun d hd => h d (by simp [hd])) true
    have hc : isBlank c = false := h c (by simp)
    rw [endsWord_cons, hc]
    simpa using hrest

/-- A part leaves its own words. -/
theorem words_spacedPart (after follows : Bool) (text : List Char) :
    words (spacedPart after follows text) = words text := by
  induction text using blank_induction generalizing after with
  | word text h => rw [spacedPart_of_noBlank h]
  | blank text c rest h hc ih =>
    have hspace : isBlank ' ' = true := by decide
    rw [spacedPart_append, spacedPart_of_noBlank h, spacedPart, if_pos hc, words_append_blank _ hc]
    split_ifs with hkept
    · rw [words_append_blank _ hspace, ih]
    -- Without a space there is no word before the blank or none after it.
    by_cases htext : text = []
    · subst htext
      exact ih false
    · rw [endsWord_of_noBlank h] at hkept
      obtain ⟨hfollows, hrest⟩ : follows = false ∧ hasWord rest = false := by
        simpa [htext] using hkept
      rw [hfollows, spacedPart_of_blank hrest, words_eq_nil_iff.mpr hrest, List.append_nil,
        List.append_nil]

/-- The whole text is a part with nothing around it. -/
theorem spacedPart_eq_spaced (text : List Char) : spacedPart false false text = spaced text := by
  induction text using blank_induction with
  | word text h => rw [spacedPart_of_noBlank h, spaced_of_noBlank h]
  | blank text c rest h hc ih =>
    rw [spacedPart_append, spacedPart_of_noBlank h, spacedPart, if_pos hc,
      endsWord_of_noBlank h, ih]
    by_cases htext : text = []
    · subst htext
      simp [spaced, words_cons_blank hc]
    by_cases hrest : words rest = []
    · have hword := words_eq_nil_iff.mp hrest
      rw [spaced_append_of_words_eq_nil text hc hrest, spaced_of_noBlank h,
        spaced_of_words_eq_nil hrest]
      simp [hword]
    · have hword : hasWord rest = true := by
        rwa [words_eq_nil_iff, Bool.not_eq_false] at hrest
      rw [spaced_append_blank (by simp [words_of_noBlank htext h]) hc hrest, spaced_of_noBlank h]
      simp [htext, hword]

/-- What is left of a part in the spaced text: the words are kept, and without blanks all
of it is. -/
def IsKept (part kept : List Char) : Prop :=
  (∀ found, HasWords part found ↔ HasWords kept found) ∧
    ((∀ c ∈ part, isBlank c = false) → kept = part)

/-- A spaced part keeps the words of the part. -/
theorem isKept_spacedPart (after follows : Bool) (part : List Char) :
    IsKept part (spacedPart after follows part) := by
  refine ⟨fun found => ?_, fun h => spacedPart_of_noBlank h after follows⟩
  rw [hasWords_iff, hasWords_iff, words_spacedPart]

/-- The spaced text is divided as the text is: every part is kept, in its place. -/
theorem exists_spaced_parts (parts : List (List Char)) :
    ∃ kept, spaced parts.flatten = kept.flatten ∧ List.Forall₂ IsKept parts kept := by
  -- Over the parts, with any surroundings of those that are left.
  have hall : ∀ after, ∃ kept, spacedPart after false parts.flatten = kept.flatten ∧
      List.Forall₂ IsKept parts kept := by
    induction parts with
    | nil => exact fun after => ⟨[], rfl, .nil⟩
    | cons part rest ih =>
      intro after
      obtain ⟨kept, heq, hkept⟩ := ih (endsWord after part)
      refine ⟨spacedPart after (hasWord rest.flatten) part :: kept, ?_,
        .cons (isKept_spacedPart _ _ part) hkept⟩
      rw [List.flatten_cons, spacedPart_append, heq, Bool.false_or, List.flatten_cons]
  rw [← spacedPart_eq_spaced]
  exact hall false

end SqlFragments.Text
