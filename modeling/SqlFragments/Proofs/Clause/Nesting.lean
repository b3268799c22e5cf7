import SqlFragments.Clause.ValueList
import SqlFragments.Proofs.Compiler.Decoding
import SqlFragments.Proofs.Compiler.Joining

/-!
# Lists inside lists

A list holds values, code and other lists, at any depth.  It is written with commas between
its entries, and a list inside another has one pair of parentheses, whichever way it got
there.  As long as code is words without marks, the text is read back: one pass over its
characters finds where lists begin and end, which entries are code and which are values.

Main results:

- `Listing.joins_items`: a list that calls have made holds its entries in order.
- `Entry.textsFrom_leavesOf`: the leaves of entries have the texts of the entries.
- `Entry.isRead_textsOf`: the text of entries is read as their shapes.
- `Listing.lists_are_read_back`: commands of lists, their bindings, and when two lists have
  the same command.
-/

namespace SqlFragments.ValueList

/-! ## Entries -/

/-- An entry of a list: a slot with something in it, code, or a list inside the list. -/
inductive Entry (α : Type) where
  | slot (a : α)
  | code (text : String)
  | list (entries : List (Entry α))

namespace Entry

variable {α : Type}

/-- Induction over the entries of a list and of the lists inside it. -/
theorem list_induction {motive : List (Entry α) → Prop} (nil : motive [])
    (slot : ∀ a rest, motive rest → motive (.slot a :: rest))
    (code : ∀ text rest, motive rest → motive (.code text :: rest))
    (list : ∀ inner rest, motive inner → motive rest → motive (.list inner :: rest))
    (entries : List (Entry α)) : motive entries :=
  @Entry.rec_1 α (fun entry => ∀ rest, motive rest → motive (entry :: rest)) motive
    (fun a rest => slot a rest) (fun text rest => code text rest)
    (fun inner hinner rest => list inner rest hinner) nil
    (fun _ rest hhead hrest => hhead rest hrest) entries

mutual

/-- What is in the slots of an entry, from left to right. -/
def slots : Entry α → List α
  | slot a => [a]
  | code _ => []
  | list entries => slotsOf entries

/-- What is in the slots of entries, from left to right. -/
def slotsOf : List (Entry α) → List α
  | [] => []
  | entry :: rest => entry.slots ++ slotsOf rest

end

mutual

/-- The codes in an entry, at any depth. -/
def codes : Entry α → List String
  | slot _ => []
  | code text => [text]
  | list entries => codesOf entries

/-- The codes in entries, at any depth. -/
def codesOf : List (Entry α) → List String
  | [] => []
  | entry :: rest => entry.codes ++ codesOf rest

end

mutual

/-- The text of an entry that has `start` slots before it: a slot is a placeholder, code is
itself, and a list is its entries between parentheses, with commas. -/
def text (p : Placeholder) (start : Nat) : Entry α → String
  | slot _ => p.token start
  | code text => text
  | list entries => "(" ++ ",".intercalate (textsOf p start entries) ++ ")"

/-- The texts of entries that follow each other. -/
def textsOf (p : Placeholder) (start : Nat) : List (Entry α) → List String
  | [] => []
  | entry :: rest => entry.text p start :: textsOf p (start + entry.slots.length) rest

end

mutual

/-- An entry without what is in its slots. -/
def shape : Entry α → Entry Unit
  | slot _ => .slot ()
  | code text => .code text
  | list entries => .list (shapes entries)

/-- Entries without what is in their slots. -/
def shapes : List (Entry α) → List (Entry Unit)
  | [] => []
  | entry :: rest => entry.shape :: shapes rest

end

mutual

/-- The leaves of an entry. -/
def leaves : Entry Value → List Leaf
  | slot v => [.value v]
  | code text => [.literal text]
  | list entries => .literal "(" :: (Leaf.joined "," (leavesOf entries) ++ [.literal ")"])

/-- The leaves of entries, one by one. -/
def leavesOf : List (Entry Value) → List (List Leaf)
  | [] => []
  | entry :: rest => entry.leaves :: leavesOf rest

end

/-- The leaves of two runs of entries stand one after the other. -/
theorem leavesOf_append (entries others : List (Entry Value)) :
    leavesOf (entries ++ others) = leavesOf entries ++ leavesOf others := by
  induction entries with
  | nil => rfl
  | cons entry rest ih => simp [leavesOf, ih]

/-- The values among the leaves of entries are those in the slots. -/
theorem values_leavesOf (entries : List (Entry Value)) :
    (leavesOf entries).flatMap Leaf.values = slotsOf entries := by
  induction entries using list_induction with
  | nil => rfl
  | slot v rest ih => simp [leavesOf, leaves, slotsOf, slots, ih]
  | code text rest ih => simp [leavesOf, leaves, slotsOf, slots, ih]
  | list inner rest hinner hrest =>
    simp [leavesOf, leaves, slotsOf, slots, Leaf.values_joined, hinner, hrest]

/-- The leaves of an entry bind as many values as it has slots. -/
theorem count_leaves (entry : Entry Value) : Leaf.count entry.leaves = entry.slots.length := by
  have h := values_leavesOf [entry]
  simp only [leavesOf, slotsOf, List.flatMap_cons, List.flatMap_nil, List.append_nil] at h
  rw [Leaf.count, h]

/-- The leaves of entries have the texts of the entries. -/
theorem textsFrom_leavesOf (p : Placeholder) (start : Nat) (entries : List (Entry Value)) :
    Leaf.textsFrom p start (leavesOf entries) = textsOf p start entries := by
  induction entries using list_induction generalizing start with
  | nil => rfl
  | slot v rest ih =>
    rw [leavesOf, Leaf.textsFrom, ih, count_leaves, textsOf]
    simp [leaves, text, Leaf.textFrom_cons, Leaf.text]
  | code text rest ih =>
    rw [leavesOf, Leaf.textsFrom, ih, count_leaves, textsOf]
    simp [leaves, Entry.text, Leaf.textFrom_cons, Leaf.text]
  | list inner rest hinner hrest =>
    rw [leavesOf, Leaf.textsFrom, hrest, count_leaves, textsOf]
    simp [leaves, text, Leaf.textFrom_cons, Leaf.textFrom_append, Leaf.text, Leaf.textFrom_joined,
      hinner, String.append_assoc]

/-- The shapes of entries have as many slots as the entries. -/
theorem slotsOf_shapes_length (entries : List (Entry α)) :
    (slotsOf (shapes entries)).length = (slotsOf entries).length := by
  induction entries using list_induction with
  | nil => rfl
  | slot a rest ih => simp [shapes, shape, slotsOf, slots, ih]
  | code text rest ih => simp [shapes, shape, slotsOf, slots, ih]
  | list inner rest hinner hrest => simp [shapes, shape, slotsOf, slots, hinner, hrest]

/-- The shape of an entry has as many slots as the entry. -/
theorem slots_shape_length (entry : Entry α) : entry.shape.slots.length = entry.slots.length := by
  simpa [shapes, slotsOf] using slotsOf_shapes_length [entry]

/-- The texts of entries do not depend on what is in the slots. -/
theorem textsOf_shapes (p : Placeholder) (start : Nat) (entries : List (Entry α)) :
    textsOf p start (shapes entries) = textsOf p start entries := by
  induction entries using list_induction generalizing start with
  | nil => rfl
  | slot a rest ih => simp [shapes, shape, textsOf, text, slots, ih]
  | code text rest ih => simp [shapes, shape, textsOf, Entry.text, slots, ih]
  | list inner rest hinner hrest =>
    rw [shapes, textsOf, textsOf, hrest, slots_shape_length]
    simp [shape, text, hinner]

/-! ## Reading a text of entries -/

/-- The characters that a placeholder can begin with. -/
def slotMarks : List Char := ['?', '$', ':', '@']

/-- A word without marks. -/
def IsPlainWord (word : List Char) : Prop :=
  word ≠ [] ∧ ∀ c ∈ word, c ∉ ['(', ')', ','] ∧ c ∉ slotMarks ∧ Text.isBlank c = false

/-- A word of letters, of whatever script, is plain. -/
theorem isPlainWord_of_letters {word : List Char} (hne : word ≠ [])
    (h : ∀ c ∈ word, Text.isBlank c = false ∧ (c.isAlpha = true ∨ 127 < c.toNat)) :
    IsPlainWord word := by
  have hmarks : ∀ d ∈ ['(', ')', ','] ++ slotMarks, d.isAlpha = false ∧ d.toNat ≤ 127 := by
    simp [slotMarks]
  have hnot : ∀ c ∈ word, c ∉ ['(', ')', ','] ++ slotMarks := by
    intro c hc hmem
    obtain ⟨halpha, hcode⟩ := hmarks c hmem
    rcases (h c hc).2 with hletter | hbeyond
    · exact absurd hletter (by simp [halpha])
    · omega
  refine ⟨hne, fun c hc => ?_⟩
  have hc' := hnot c hc
  rw [List.mem_append, not_or] at hc'
  exact ⟨hc'.1, hc'.2, (h c hc).1⟩

/-- The entry that a word is. -/
def ofWord (word : List Char) : Entry Unit :=
  if word.any fun c => slotMarks.contains c then .slot () else .code (String.ofList word)

end Entry

/-- What is known inside one pair of parentheses: the entries that are complete, the last
one first, and the characters after them. -/
structure Reading where
  done : List (Entry Unit)
  word : List Char

/-- The entries inside, the last one first. -/
def Reading.entries (r : Reading) : List (Entry Unit) :=
  if r.word.isEmpty then r.done else Entry.ofWord r.word :: r.done

/-- The entries of a text, found in one pass; what is known outside the innermost
parentheses is kept on a stack. -/
def read : List Char → Reading → List (List (Entry Unit)) → Option (List (Entry Unit))
  | [], r, [] => some r.entries.reverse
  | [], _, _ :: _ => none
  | '(' :: text, r, stack => read text ⟨[], []⟩ (r.entries :: stack)
  | ')' :: text, r, outer :: stack => read text ⟨.list r.entries.reverse :: outer, []⟩ stack
  | ')' :: _, _, [] => none
  | ',' :: text, r, stack => read text ⟨r.entries, []⟩ stack
  | c :: text, r, stack => read text ⟨r.done, r.word ++ [c]⟩ stack

/-- The entries that a text is read as. -/
def readText (text : String) : Option (List (Entry Unit)) := read text.toList ⟨[], []⟩ []

namespace Entry

/-- A text is read as entries, whatever stands around it, and has no blanks. -/
structure IsRead (text : List Char) (entries : List (Entry Unit)) : Prop where
  noBlank : ∀ c ∈ text, Text.isBlank c = false
  passed : ∀ done, ∃ r : Reading, r.entries = entries.reverse ++ done ∧
    ∀ rest stack, read (text ++ rest) ⟨done, []⟩ stack = read rest r stack

/-- No entries are read from no text. -/
theorem IsRead.nil : IsRead [] [] where
  noBlank := by simp
  passed done := ⟨⟨done, []⟩, rfl, fun _ _ => rfl⟩

/-- The characters of a word are collected. -/
theorem read_word {word : List Char} (h : ∀ c ∈ word, c ∉ ['(', ')', ',']) (rest : List Char)
    (r : Reading) (stack : List (List (Entry Unit))) :
    read (word ++ rest) r stack = read rest ⟨r.done, r.word ++ word⟩ stack := by
  induction word generalizing r with
  | nil => simp
  | cons c word ih =>
    have hc : c ≠ '(' ∧ c ≠ ')' ∧ c ≠ ',' := by simpa using h c (by simp)
    have hstep : read (c :: (word ++ rest)) r stack =
        read (word ++ rest) ⟨r.done, r.word ++ [c]⟩ stack := by
      rw [read]
      · exact hc.1
      · exact hc.2.2
      · exact fun _ _ _ => hc.2.1
      · exact fun _ => hc.2.1
    have hrest := ih (fun d hd => h d (by simp [hd])) ⟨r.done, r.word ++ [c]⟩
    rw [List.cons_append, hstep, hrest]
    simp

/-- A word is one entry. -/
theorem IsRead.word {word : List Char} (hne : word ≠ [])
    (h : ∀ c ∈ word, c ∉ ['(', ')', ','] ∧ Text.isBlank c = false) :
    IsRead word [ofWord word] where
  noBlank c hc := (h c hc).2
  passed done := by
    refine ⟨⟨done, word⟩, by simp [Reading.entries, hne], fun rest stack => ?_⟩
    exact read_word (fun c hc => (h c hc).1) rest ⟨done, []⟩ stack

/-- A text between parentheses is one entry, a list. -/
theorem IsRead.parenthesized {text : List Char} {entries : List (Entry Unit)}
    (h : IsRead text entries) : IsRead ('(' :: (text ++ [')'])) [.list entries] where
  noBlank := by
    intro c hc
    simp only [List.mem_cons, List.mem_append, List.not_mem_nil, or_false] at hc
    rcases hc with rfl | hc | rfl
    · decide
    · exact h.noBlank c hc
    · decide
  passed done := by
    obtain ⟨r, hentries, hread⟩ := h.passed []
    refine ⟨⟨.list entries :: done, []⟩, rfl, fun rest stack => ?_⟩
    have hopen : read ('(' :: (text ++ ')' :: rest)) ⟨done, []⟩ stack =
        read (text ++ ')' :: rest) ⟨[], []⟩ (done :: stack) := rfl
    rw [List.append_nil] at hentries
    rw [List.cons_append, List.append_assoc, List.singleton_append, hopen, hread, read, hentries,
      List.reverse_reverse]

/-- A comma ends the entries before it. -/
theorem IsRead.comma {text other : List Char} {entries others : List (Entry Unit)}
    (h : IsRead text entries) (h' : IsRead other others) :
    IsRead (text ++ ',' :: other) (entries ++ others) where
  noBlank := by
    intro c hc
    simp only [List.mem_append, List.mem_cons] at hc
    rcases hc with hc | rfl | hc
    · exact h.noBlank c hc
    · decide
    · exact h'.noBlank c hc
  passed done := by
    obtain ⟨r, hentries, hread⟩ := h.passed done
    obtain ⟨r', hentries', hread'⟩ := h'.passed (entries.reverse ++ done)
    refine ⟨r', by simp [hentries'], fun rest stack => ?_⟩
    rw [List.append_assoc, List.cons_append, hread, read, hentries, hread']

/-- An entry and the entries after it, with commas between them. -/
theorem IsRead.cons {α : Type} {p : Placeholder} {start : Nat} {entry : Entry α}
    {rest : List (Entry α)} (h : IsRead (entry.text p start).toList [entry.shape])
    (hrest : ∀ start, IsRead (",".intercalate (textsOf p start rest)).toList (shapes rest)) :
    IsRead (",".intercalate (textsOf p start (entry :: rest))).toList (shapes (entry :: rest)) := by
  cases rest with
  | nil => simpa [textsOf, shapes] using h
  | cons next rest =>
    have hboth := h.comma (hrest (start + entry.slots.length))
    simpa [textsOf, shapes] using hboth

/-- A placeholder of a built-in style is read as a slot. -/
theorem isRead_token {p : Placeholder} (hp : ∀ name, p ≠ .custom name) (index : Nat) :
    IsRead (p.token index).toList [.slot ()] := by
  rcases Placeholder.exists_token_eq hp index with ⟨mark, rest, htoken, hmark, hrest⟩
  have hmarks : ∀ c ∈ slotMarks, c ∉ ['(', ')', ','] ∧ Text.isBlank c = false := by
    simp [slotMarks, Text.isBlank, Text.inRanges, Text.blankRanges]
  have hdigits : ∀ {c : Char}, c.isDigit = true → c ∉ ['(', ')', ','] ∧ Text.isBlank c = false := by
    intro c hc
    constructor
    · intro hmem
      have hall : ∀ d ∈ ['(', ')', ','], d.isDigit = false := by simp
      exact absurd (hall c hmem) (by simp [hc])
    · rw [Bool.eq_false_iff]
      intro hblank
      exact absurd (Placeholder.isDigit_of_isBlank hblank) (by simp [hc])
  have hslot : ofWord (mark :: rest) = .slot () := by
    have hmem : mark ∈ slotMarks := hmark
    simp [ofWord, hmem]
  rw [htoken, ← hslot]
  refine .word (List.cons_ne_nil _ _) (List.forall_mem_cons.mpr ⟨hmarks mark hmark, ?_⟩)
  intro c hc
  rcases hrest c hc with rfl | hdigit
  · decide
  · exact hdigits hdigit

/-- A plain word is read as code. -/
theorem isRead_plainWord {text : String} (h : IsPlainWord text.toList) :
    IsRead text.toList [.code text] := by
  have hcode : ofWord text.toList = .code text := by
    have hnone : ¬(text.toList.any fun c => slotMarks.contains c) = true := by
      simp only [List.any_eq_true, List.contains_iff_mem, not_exists, not_and]
      exact fun c hc => (h.2 c hc).2.1
    rw [ofWord, if_neg hnone, String.ofList_toList]
  rw [← hcode]
  exact .word h.1 fun c hc => ⟨(h.2 c hc).1, (h.2 c hc).2.2⟩

/-- The text of entries is read as their shapes, if the codes are plain words. -/
theorem isRead_textsOf {α : Type} {p : Placeholder} (hp : ∀ name, p ≠ .custom name) (start : Nat)
    {entries : List (Entry α)} (h : ∀ text ∈ codesOf entries, IsPlainWord text.toList) :
    IsRead (",".intercalate (textsOf p start entries)).toList (shapes entries) := by
  induction entries using list_induction generalizing start with
  | nil => exact .nil
  | slot a rest ih => exact .cons (isRead_token hp start) fun start => ih start h
  | code text rest ih =>
    obtain ⟨hword, hrest⟩ := List.forall_mem_cons.mp h
    exact .cons (isRead_plainWord hword) fun start => ih start hrest
  | list inner rest hinner hrest =>
    obtain ⟨hcodes, hothers⟩ := List.forall_mem_append.mp h
    have hlist := (hinner start hcodes).parenthesized
    refine .cons ?_ fun start => hrest start hothers
    simpa [text, shape] using hlist

/-- A text that is read as entries is read back as a whole. -/
theorem IsRead.readText_eq {text : String} {entries : List (Entry Unit)}
    (h : IsRead text.toList entries) : readText text = some entries := by
  obtain ⟨r, hentries, hread⟩ := h.passed []
  have hwhole := hread [] []
  rw [List.append_nil] at hwhole hentries
  rw [readText, hwhole, read, hentries, List.reverse_reverse]

end Entry

/-! ## Lists made by calls -/

/-- The ways to put a list into another. -/
inductive Manner where
  /-- As an item, by its own or by reference. -/
  | appended
  | nested
  /-- Between parentheses already. -/
  | parenthesized

/-- The calls that make a list. -/
inductive Listing where
  | empty
  | value (before : Listing) (v : Value)
  | code (before : Listing) (text : String)
  | list (manner : Manner) (before inner : Listing)

/-- A list with another inside it. -/
def insert : Manner → ValueList → ValueList → ValueList
  | .appended, l, inner => l.append (toItem inner)
  | .nested, l, inner => l.nested inner
  | .parenthesized, l, inner => l.append (toItem inner.parenthesized)

namespace Listing

/-- The list after the calls. -/
def valueList : Listing → ValueList
  | empty => .empty
  | value before v => before.valueList.value v
  | code before text => before.valueList.append (.code text)
  | list manner before inner => insert manner before.valueList inner.valueList

/-- The entries of the list, in order. -/
def entries : Listing → List (Entry Value)
  | empty => []
  | value before v => before.entries ++ [.slot v]
  | code before text => before.entries ++ [.code text]
  | list _ before inner => before.entries ++ [.list inner.entries]

end Listing

/-- In whichever manner, a list comes into another between one pair of parentheses. -/
theorem insert_eq (manner : Manner) (l inner : ValueList) :
    insert manner l inner =
      ⟨l.items.push (.subtree [.literal "(", (toQuery inner).asSegment, .literal ")"])⟩ := by
  cases manner <;> rfl

namespace Listing

/-- A list that calls have made holds its entries in order. -/
theorem joins_items (l : Listing) : l.valueList.items.Joins "," (Entry.leavesOf l.entries) := by
  induction l with
  | empty => exact .start ","
  | value before v ih =>
    rw [entries, Entry.leavesOf_append]
    exact ih.value v
  | code before text ih =>
    rw [entries, Entry.leavesOf_append]
    exact ih.raw (.code text)
  | list manner before inner ih hinner =>
    have hgroup : Segment.leaves (.subtree [.literal "(", (toQuery inner.valueList).asSegment,
        .literal ")"]) = (Entry.list inner.entries).leaves := by
      have hleaves : (toQuery inner.valueList).leaves = _ := hinner.leaves_build
      rw [Entry.leaves, ← hleaves]
      simp [Segment.leaves, Segment.leavesOf, Query.asSegment, Query.leaves]
    rw [entries, Entry.leavesOf_append, valueList, insert_eq]
    have hpush := ih.push (.subtree [.literal "(", (toQuery inner.valueList).asSegment,
      .literal ")"])
    rw [hgroup] at hpush
    exact hpush

/-- The text of a list that calls have made, alone. -/
def text (p : Placeholder) (l : Listing) : String := ",".intercalate (Entry.textsOf p 0 l.entries)

/-- The command of a list is its text in its manner, and its bindings are its slots. -/
theorem compile_valueList (c : Compiler) (l : Listing) :
    c.compile l.valueList = ⟨c.finish (l.text c.placeholder), Entry.slotsOf l.entries⟩ := by
  have hquery : c.compile l.valueList = c.compile l.valueList.items.build := rfl
  rw [hquery, c.compile_query, l.joins_items.leaves_build, Leaf.textFrom_joined,
    Leaf.values_joined, Entry.textsFrom_leavesOf, Entry.values_leavesOf, text]

/-- A parenthesized list is its text between one pair of parentheses. -/
theorem compile_parenthesized (c : Compiler) (l : Listing) :
    c.compile l.valueList.parenthesized =
      ⟨c.finish ("(" ++ l.text c.placeholder ++ ")"), Entry.slotsOf l.entries⟩ := by
  have hquery : c.compile l.valueList.parenthesized =
      c.compile (toQuery l.valueList.parenthesized) := rfl
  have hleaves : (toQuery l.valueList.parenthesized).leaves =
      .literal "(" :: (l.valueList.items.build.leaves ++ [.literal ")"]) :=
    Group.leaves_toQuery _
  rw [hquery, c.compile_query, hleaves, l.joins_items.leaves_build]
  simp [Leaf.textFrom_cons, Leaf.textFrom_append, Leaf.text, Leaf.textFrom_joined,
    Leaf.values_joined, Entry.textsFrom_leavesOf, Entry.values_leavesOf, text,
    String.append_assoc]

/-- Whether all codes of a list are plain words, at any depth. -/
def HasPlainCodes (l : Listing) : Prop :=
  ∀ code ∈ Entry.codesOf l.entries, Entry.IsPlainWord code.toList

/-- A command of plain words and placeholders has no blanks to collapse. -/
theorem command_valueList {c : Compiler} (hstyle : ∀ name, c.placeholder ≠ .custom name)
    (hpost : c.postProcess = none) {l : Listing} (h : l.HasPlainCodes) :
    (c.compile l.valueList).command = l.text c.placeholder := by
  have hread : Entry.IsRead (l.text c.placeholder).toList _ := Entry.isRead_textsOf hstyle 0 h
  rw [compile_valueList]
  simp only [Compiler.finish, hpost, Option.elim_none]
  split
  · rw [← String.toList_inj, Text.toList_collapseBlanks, Text.spaced_of_noBlank hread.noBlank]
  · rfl

/-- The command of a list is its entries with commas between them, at every depth with one
pair of parentheses around a list inside another, and one more around the whole if it is
parenthesized; the bindings are the values in their order.  In the built-in styles, as long
as code is plain words, the command is read back as the shapes of the entries, and two lists
have the same command exactly when their entries have the same shapes. -/
theorem lists_are_read_back (c : Compiler) (l : Listing) :
    c.compile l.valueList = ⟨c.finish (l.text c.placeholder), Entry.slotsOf l.entries⟩ ∧
    c.compile l.valueList.parenthesized =
      ⟨c.finish ("(" ++ l.text c.placeholder ++ ")"), Entry.slotsOf l.entries⟩ ∧
    ((∀ name, c.placeholder ≠ .custom name) → c.postProcess = none → l.HasPlainCodes →
      readText (c.compile l.valueList).command = some (Entry.shapes l.entries) ∧
      ∀ other : Listing, other.HasPlainCodes →
        ((c.compile l.valueList).command = (c.compile other.valueList).command ↔
          Entry.shapes l.entries = Entry.shapes other.entries)) := by
  refine ⟨l.compile_valueList c, l.compile_parenthesized c, ?_⟩
  intro hstyle hpost hplain
  have hreads : ∀ {m : Listing}, m.HasPlainCodes →
      readText (c.compile m.valueList).command = some (Entry.shapes m.entries) := by
    intro m hm
    rw [command_valueList hstyle hpost hm]
    exact (Entry.isRead_textsOf hstyle 0 hm).readText_eq
  refine ⟨hreads hplain, fun other hother => ⟨fun h => ?_, fun h => ?_⟩⟩
  · have hboth := hreads hplain
    rw [h, hreads hother] at hboth
    exact (Option.some.inj hboth).symm
  · rw [compile_valueList, compile_valueList, text, text, ← Entry.textsOf_shapes, h,
      Entry.textsOf_shapes]

/-- An empty list, a list with a value and a list in parentheses inside one list. -/
theorem lists_are_read_back_nested :
    let row : Listing := .code (.value .empty (.int 7)) "now"
    let l : Listing := .list .parenthesized
      (.value (.list .nested (.list .appended .empty .empty) row) (.int 8)) row
    (∀ name, Compiler.numbered.placeholder ≠ .custom name) ∧
      Compiler.numbered.postProcess = none ∧ l.HasPlainCodes ∧
      (Compiler.numbered.compile l.valueList).command = "(),($1,now),$2,($3,now)" ∧
      readText (Compiler.numbered.compile l.valueList).command =
        some (Entry.shapes l.entries) := by
  intro row l
  have hplain : l.HasPlainCodes := by
    intro code hcode
    have hmem : code ∈ ["now", "now"] := hcode
    simp only [List.mem_cons, List.not_mem_nil, or_false, or_self] at hmem
    subst hmem
    exact Entry.isPlainWord_of_letters (by decide)
      (by simp [Text.isBlank, Text.inRanges, Text.blankRanges])
  have hstyle : ∀ name, Compiler.numbered.placeholder ≠ .custom name := by simp [Compiler.numbered]
  exact ⟨hstyle, rfl, hplain, by decide +kernel,
    ((lists_are_read_back .numbered l).2.2 hstyle rfl hplain).1⟩

end Listing

end SqlFragments.ValueList
