import SqlFragments.Proofs.Compiler.Flattening
import SqlFragments.Proofs.Text.Canonical

/-!
# Commands with collapsed blanks

A compiler may collapse the blanks of a command before it gives the command out.  The
command is then the canonical form of what it would be otherwise.  Every leaf of the
tree keeps its words in it, so a placeholder without blanks stands there as it is, after
the placeholders of the values before; the bindings are not concerned.

Main results:

- `Text.exists_collapsed_texts`: joined texts are collapsed one by one.
- `Compiler.blanks_collapse_to_canonical_form`: the canonical form of texts and commands.
-/

namespace SqlFragments

open Text

/-! ## Collapsed texts -/

namespace Text

/-- Texts are collapsed to the same text exactly if they have the same words. -/
theorem collapseBlanks_eq_iff {s t : String} :
    collapseBlanks s = collapseBlanks t ↔ words s.toList = words t.toList := by
  rw [← String.toList_inj, toList_collapseBlanks, toList_collapseBlanks, spaced_eq_spaced_iff]

/-- A spaced text with the words of a text is the collapsed text. -/
theorem eq_collapseBlanks {s t : String} (hspaced : IsSpaced t.toList)
    (hwords : words t.toList = words s.toList) : t = collapseBlanks s := by
  rw [← String.toList_inj, toList_collapseBlanks, ← spaced_eq_spaced_iff.mpr hwords,
    hspaced.spaced_eq]

/-- The words of two texts with a space between them are the words of one and the other. -/
theorem words_append_space (s t : String) :
    words (s ++ " " ++ t).toList = words s.toList ++ words t.toList := by
  have hspace : isBlank ' ' = true := by decide
  have htext : (s ++ " " ++ t).toList = s.toList ++ ' ' :: t.toList := by simp
  rw [htext, words_append_blank _ hspace]

/-- Joined texts are collapsed one by one: what is left of each text follows what is left of the
texts before it. -/
theorem exists_collapsed_texts (texts : List String) :
    ∃ kept : List String, collapseBlanks (String.join texts) = String.join kept ∧
      List.Forall₂ (fun text left => IsKept text.toList left.toList) texts kept := by
  obtain ⟨kept, heq, hkept⟩ := exists_spaced_parts (texts.map String.toList)
  refine ⟨kept.map String.ofList, ?_, ?_⟩
  · rw [← String.toList_inj, toList_collapseBlanks, String.toList_join, String.toList_join,
      List.flatMap_def, heq, List.flatMap_def, List.map_map]
    simp
  · rw [List.forall₂_map_left_iff] at hkept
    simpa [List.forall₂_map_right_iff] using hkept

end Text

/-! ## Leaf by leaf -/

namespace Leaf

/-- The texts of leaves, one for each: a literal has its code, and a value the token of the
number of values before it. -/
def texts (placeholder : Placeholder) (leaves : List Leaf) : List String :=
  leaves.mapIdx fun i leaf => leaf.text placeholder (count (leaves.take i))

/-- The text written from the first token on is that of the leaves, one after the other. -/
theorem textFrom_zero (placeholder : Placeholder) (leaves : List Leaf) :
    textFrom placeholder 0 leaves = String.join (texts placeholder leaves) := by
  simp only [textFrom, texts, Nat.zero_add]

end Leaf

namespace Compiler

/-- Collapsing blanks is a canonical form.  A text has one sequence of words, its longest runs
of characters that are not blank.  The collapsed text has the same words and no blanks
but single spaces between neighbouring words, and it is the only such text.  So collapsing
twice changes nothing more, texts are collapsed to the same text exactly if they have the
same words, and texts with a space between them may be collapsed first.  A command with
collapsed blanks has the bindings of the command without, and every leaf keeps its words in
its place: a token that has no blanks is there as it is. -/
theorem blanks_collapse_to_canonical_form :
    (∀ s : String, ∃ found : List (List Char),
      (∀ other, HasWords s.toList other ↔ other = found) ∧
      HasWords (collapseBlanks s).toList found ∧ IsSpaced (collapseBlanks s).toList ∧
      ∀ t : String, HasWords t.toList found → IsSpaced t.toList → t = collapseBlanks s) ∧
    (∀ s : String, collapseBlanks (collapseBlanks s) = collapseBlanks s) ∧
    (∀ s t : String, collapseBlanks s = collapseBlanks t ↔
      ∀ found, HasWords s.toList found ↔ HasWords t.toList found) ∧
    (∀ s t : String, collapseBlanks (s ++ " " ++ t) =
      collapseBlanks (collapseBlanks s ++ " " ++ collapseBlanks t)) ∧
    ∀ (p : Placeholder) (post : Option (String → String)) (q : Query),
      ∃ kept : List String,
        List.Forall₂ (fun text left => IsKept text.toList left.toList)
          (Leaf.texts p q.leaves) kept ∧
        String.join kept = collapseBlanks (String.join (Leaf.texts p q.leaves)) ∧
        (Compiler.mk p false post).compile q =
          ⟨post.getD id (String.join (Leaf.texts p q.leaves)), Leaf.values q.leaves⟩ ∧
        (Compiler.mk p true post).compile q =
          ⟨post.getD id (String.join kept), Leaf.values q.leaves⟩ := by
  refine ⟨?canonical, ?idempotent, ?same, ?joined, ?command⟩
  case canonical =>
    intro s
    refine ⟨words s.toList, fun other => hasWords_iff.trans eq_comm, ?_, ?_, ?_⟩
    · rw [hasWords_iff, toList_collapseBlanks, words_spaced]
    · rw [toList_collapseBlanks]
      exact isSpaced_spaced _
    · intro t hwords hspaced
      exact eq_collapseBlanks hspaced (hasWords_iff.mp hwords)
  case idempotent =>
    intro s
    rw [collapseBlanks_eq_iff, toList_collapseBlanks, words_spaced]
  case same =>
    intro s t
    simp only [collapseBlanks_eq_iff, hasWords_iff]
    exact ⟨fun h found => by rw [h], fun h => ((h _).mpr rfl)⟩
  case joined =>
    intro s t
    rw [collapseBlanks_eq_iff, words_append_space, words_append_space, toList_collapseBlanks,
      toList_collapseBlanks, words_spaced, words_spaced]
  case command =>
    intro p post q
    obtain ⟨kept, heq, hkept⟩ := exists_collapsed_texts (Leaf.texts p q.leaves)
    refine ⟨kept, hkept, heq.symm, ?_, ?_⟩
    · rw [compile_query, Leaf.textFrom_zero]
      cases post <;> rfl
    · rw [compile_query, Leaf.textFrom_zero, finish, if_pos rfl, heq]
      cases post <;> rfl

/-- Blanks of several kinds around two words leave one space, between the words. -/
theorem blanks_collapse_to_canonical_form_mixed :
    HasWords "a b".toList [['a'], ['b']] ∧ IsSpaced "a b".toList ∧
      "a b" = collapseBlanks "\u3000a\t\u00a0b\n" := by
  obtain ⟨found, hfound, -, -, hunique⟩ :=
    blanks_collapse_to_canonical_form.1 "\u3000a\t\u00a0b\n"
  have hwords : HasWords "a b".toList [['a'], ['b']] := hasWords_iff.mpr (by decide)
  have hspaced : IsSpaced "a b".toList := by
    have heq : spaced "a b".toList = "a b".toList := by decide
    exact heq ▸ isSpaced_spaced _
  obtain rfl : [['a'], ['b']] = found := (hfound _).mp (hasWords_iff.mpr (by decide))
  exact ⟨hwords, hspaced, hunique "a b" hwords hspaced⟩

end Compiler

end SqlFragments
