import SqlFragments.Identifier
import SqlFragments.Proofs.Text.Spacing

/-!
# The grammar of identifiers

The grammar of identifiers is said apart from the reader: which parts there are, and
how a list of parts is written.  The reader accepts the written forms of valid parts
and nothing else, and gives back the parts that were written.

Main results:

- `readPart_sound`, `readPart_write`: a part is read exactly when it stands at the
  start of the text, before a dot or the end.
- `readParts_sound`, `readParts_write`: the same for parts with dots between them.
- `parse_accepts_grammar`: reading accepts exactly the grammar and inverts writing.
-/

namespace SqlFragments.Identifier

/-! ## Valid parts -/

/-- A letter of the ASCII alphabet. -/
def IsLetter (c : Char) : Prop := ('A' ≤ c ∧ c ≤ 'Z') ∨ ('a' ≤ c ∧ c ≤ 'z')

/-- A character that an unquoted name starts with: a letter or an underscore. -/
def IsNameStart (c : Char) : Prop := IsLetter c ∨ c = '_'

/-- A character that an unquoted name goes on with: one that can start it, a digit or a
dollar sign. -/
def IsNameNext (c : Char) : Prop := IsNameStart c ∨ ('0' ≤ c ∧ c ≤ '9') ∨ c = '$'

/-- A valid part is an unquoted name, or a quoted text that is not empty and has no NUL. -/
def Part.IsValid : Part → Prop
  | .unquoted name =>
    ∃ c rest, name.toList = c :: rest ∧ IsNameStart c ∧ ∀ d ∈ rest, IsNameNext d
  | .quoted name => name ≠ "" ∧ '\x00' ∉ name.toList

/-- The test for the first character of an unquoted part is the grammar's. -/
theorem startsName_iff (c : Char) : startsName c = true ↔ IsNameStart c := by
  have halpha : c.isAlpha = (c.isUpper || c.isLower) := rfl
  have hupper : c.isUpper = decide ('A' ≤ c ∧ c ≤ 'Z') := rfl
  have hlower : c.isLower = (decide ('a' ≤ c) && decide (c ≤ 'z')) := rfl
  simp only [startsName, halpha, hupper, hlower, Bool.or_eq_true, beq_iff_eq, Bool.and_eq_true,
    decide_eq_true_eq, IsNameStart, IsLetter]
  exact or_comm

/-- The test for a later character of an unquoted part is the grammar's. -/
theorem continuesName_iff (c : Char) : continuesName c = true ↔ IsNameNext c := by
  have hstart := startsName_iff c
  simp only [startsName, Bool.or_eq_true, beq_iff_eq] at hstart
  simp only [continuesName, Char.isAlphanum, Char.isDigit, Bool.or_eq_true, beq_iff_eq,
    Bool.and_eq_true, decide_eq_true_eq, IsNameNext, ← hstart]
  constructor
  · rintro ((rfl | rfl) | halpha | hdigit)
    · exact .inl (.inl rfl)
    · exact .inr (.inr rfl)
    · exact .inl (.inr halpha)
    · exact .inr (.inl hdigit)
  · rintro ((rfl | halpha) | hdigit | rfl)
    · exact .inl (.inl rfl)
    · exact .inr (.inl halpha)
    · exact .inr (.inr hdigit)
    · exact .inl (.inr rfl)

/-! ## One part -/

/-- What is read as a quoted name was written as one. -/
theorem readQuoted_sound {text name after : List Char}
    (h : readQuoted text = some (name, after)) : text = doubleQuotes name ++ '"' :: after := by
  fun_induction readQuoted text generalizing name with
  | case1 => simp at h
  | case2 rest ih =>
    rcases Option.map_eq_some_iff.mp h with ⟨⟨inner, remaining⟩, hinner, heq⟩
    rcases Prod.mk.inj heq with ⟨rfl, rfl⟩
    rw [ih hinner]
    simp [doubleQuotes]
  | case3 rest _ =>
    rcases Prod.mk.inj (Option.some.inj h) with ⟨rfl, rfl⟩
    rfl
  | case4 c rest _ hquote ih =>
    rcases Option.map_eq_some_iff.mp h with ⟨⟨inner, remaining⟩, hinner, heq⟩
    rcases Prod.mk.inj heq with ⟨rfl, rfl⟩
    have hc : c ≠ '"' := hquote
    rw [ih hinner]
    simp [doubleQuotes, hc]

/-- What is read as an unquoted name stands at the start of the text, and has the
characters that it may have. -/
theorem readBare_sound {allowed : Char → Bool} {text name after : List Char}
    (h : readBare allowed text = .ok (name, after)) :
    text = name ++ after ∧ (∀ c ∈ name.head?, allowed c = true) ∧
      ∀ d ∈ name.tail, continuesName d = true := by
  induction text generalizing allowed name after with
  | nil =>
    rcases Prod.mk.inj (Except.ok.inj h) with ⟨rfl, rfl⟩
    simp
  | cons c rest ih =>
    simp only [readBare] at h
    split at h
    · rcases Prod.mk.inj (Except.ok.inj h) with ⟨rfl, rfl⟩
      simp
    · split at h
      · rename_i hallowed
        cases hrest : readBare continuesName rest with
        | error d => simp [hrest, Except.map] at h
        | ok found =>
          rcases ih hrest with ⟨htext, hhead, htail⟩
          simp only [hrest, Except.map, Except.ok.injEq, Prod.mk.injEq] at h
          rcases h with ⟨rfl, rfl⟩
          refine ⟨by rw [htext]; rfl, by simpa using hallowed, fun d hd => ?_⟩
          cases hfound : found.1 with
          | nil => simp [hfound] at hd
          | cons e others =>
            rw [hfound] at hhead htail hd
            rcases List.mem_cons.mp hd with rfl | hd
            · exact hhead d rfl
            · exact htail d hd
      · simp at h

/-- Doubling quotes brings and takes no character. -/
theorem mem_doubleQuotes (c : Char) (name : List Char) : c ∈ doubleQuotes name ↔ c ∈ name := by
  induction name with
  | nil => rfl
  | cons d name ih =>
    rw [doubleQuotes]
    split
    · rename_i hd
      subst hd
      simp [ih]
    · simp [ih]

/-- A part that is read is valid and was written at the start of the text. -/
theorem readPart_sound {text : String} {rest : List Char} {part : Part}
    {after : { after : List Char // after.length ≤ rest.length }}
    (hnul : '\x00' ∉ rest) (h : readPart text rest = .ok (part, after)) :
    part.IsValid ∧ rest = part.write ++ after.val := by
  unfold readPart at h
  split at h
  · rename_i quoted
    split at h
    · simp at h
    · rename_i name remaining hread
      split at h
      · simp at h
      · rename_i hname
        rcases Prod.mk.inj (Except.ok.inj h) with ⟨rfl, rfl⟩
        have htext := readQuoted_sound hread
        refine ⟨⟨?_, ?_⟩, ?_⟩
        · simpa [String.ofList_eq_empty_iff] using hname
        · intro hmem
          rw [String.toList_ofList, ← mem_doubleQuotes] at hmem
          exact hnul (by simp [htext, hmem])
        · simp [Part.write, writeQuoted, htext]
  · split at h
    · simp at h
    · rename_i name remaining hread
      split at h
      · simp at h
      · rename_i hname
        rcases Prod.mk.inj (Except.ok.inj h) with ⟨rfl, rfl⟩
        rcases readBare_sound hread with ⟨htext, hhead, htail⟩
        cases name with
        | nil => exact absurd rfl hname
        | cons c name =>
          refine ⟨⟨c, name, String.toList_ofList, ?_, fun d hd => ?_⟩, ?_⟩
          · exact (startsName_iff c).mp (hhead c rfl)
          · exact (continuesName_iff d).mp (htail d hd)
          · rw [Part.write, String.toList_ofList]
            exact htext

/-- A text that starts with an unquoted name is read as that part. -/
theorem readPart_of_readBare (text : String) {rest name after : List Char}
    (hquote : rest.head? ≠ some '"') (hread : readBare startsName rest = .ok (name, after))
    (hname : name ≠ []) :
    ∃ hle, readPart text rest = .ok (.unquoted (String.ofList name), ⟨after, hle⟩) := by
  refine ⟨length_readBare_le hread, ?_⟩
  unfold readPart
  split
  · exact absurd rfl hquote
  · split
    · rename_i herror
      cases hread.symm.trans herror
    · rename_i found remaining hfound
      rcases Prod.mk.inj (Except.ok.inj (hread.symm.trans hfound)) with ⟨rfl, rfl⟩
      simp [hname]

/-- A text that starts with a quoted name is read as that part. -/
theorem readPart_of_readQuoted (text : String) {quoted name after : List Char}
    (hread : readQuoted quoted = some (name, after)) (hname : name ≠ []) :
    ∃ hle, readPart text ('"' :: quoted) = .ok (.quoted (String.ofList name), ⟨after, hle⟩) := by
  refine ⟨Nat.le_succ_of_le (Nat.le_of_lt (length_readQuoted_lt hread)), ?_⟩
  simp only [readPart]
  split
  · rename_i hnone
    cases hread.symm.trans hnone
  · rename_i found remaining hfound
    rcases Prod.mk.inj (Option.some.inj (hread.symm.trans hfound)) with ⟨rfl, rfl⟩
    simp [hname]

/-- A valid part is read where it is written, before a dot or the end. -/
theorem readPart_write (text : String) {part : Part} (hvalid : part.IsValid)
    {after : List Char} (hafter : after = [] ∨ after.head? = some '.') :
    ∃ hle, readPart text (part.write ++ after) = .ok (part, ⟨after, hle⟩) := by
  cases part with
  | quoted name =>
    have hquote : after.head? ≠ some '"' := by
      rcases hafter with rfl | hafter
      · simp
      · simp [hafter]
    have hwrite : (Part.quoted name).write ++ after =
        '"' :: (doubleQuotes name.toList ++ '"' :: after) := by
      simp [Part.write, writeQuoted]
    have hname : name.toList ≠ [] := by simpa using hvalid.1
    have hread := readPart_of_readQuoted text (readQuoted_writeQuoted name.toList hquote) hname
    rw [String.ofList_toList] at hread
    rw [hwrite]
    exact hread
  | unquoted name =>
    rcases hvalid with ⟨c, rest, hname, hstart, hnext⟩
    have hfirst : startsName c = true := (startsName_iff c).mpr hstart
    have hbare : readBare startsName (c :: rest ++ after) = .ok (c :: rest, after) :=
      readBare_append hfirst (by decide) (fun d hd => (continuesName_iff d).mpr (hnext d hd)) hafter
    have hquote : (c :: rest ++ after).head? ≠ some '"' := by
      rintro heq
      obtain rfl := Option.some.inj heq
      exact absurd hfirst (by decide)
    have hread := readPart_of_readBare text hquote hbare (List.cons_ne_nil c rest)
    rw [← hname, String.ofList_toList] at hread
    exact hread

/-! ## Parts with dots between them -/

/-- Parts with a dot between neighbours. -/
def writeParts (parts : List Part) : List Char := ['.'].intercalate (parts.map Part.write)

/-- A single part is written without a dot. -/
theorem writeParts_singleton (part : Part) : writeParts [part] = part.write := by
  simp [writeParts]

/-- The first of several parts is followed by a dot. -/
theorem writeParts_cons_cons (part next : Part) (parts : List Part) :
    writeParts (part :: next :: parts) = part.write ++ '.' :: writeParts (next :: parts) := by
  simp [writeParts, List.intercalate_cons_cons]

/-- A valid part is not written as nothing. -/
theorem write_ne_nil {part : Part} (hvalid : part.IsValid) : part.write ≠ [] := by
  cases part with
  | quoted name => simp [Part.write, writeQuoted]
  | unquoted name =>
    rcases hvalid with ⟨c, rest, hname, _⟩
    simp [Part.write, hname]

/-- Valid parts are not written as nothing. -/
theorem writeParts_ne_nil {parts : List Part} (hne : parts ≠ [])
    (hall : ∀ part ∈ parts, part.IsValid) : writeParts parts ≠ [] := by
  cases parts with
  | nil => exact absurd rfl hne
  | cons part parts =>
    cases parts with
    | nil => simpa [writeParts_singleton] using write_ne_nil (hall part (by simp))
    | cons next parts => simp [writeParts_cons_cons]

/-- Parts that are read are valid and were written with dots between them. -/
theorem readParts_sound {text : String} {rest : List Char} {parts : List Part}
    (hnul : '\x00' ∉ rest) (h : readParts text rest = .ok parts) :
    parts ≠ [] ∧ (∀ part ∈ parts, part.IsValid) ∧ writeParts parts = rest := by
  -- Along the recursion of the reader: each step takes one part and the dot after it.
  fun_induction readParts text rest generalizing parts with
  | case1 => simp at h
  | case2 rest part _ hread =>
    obtain rfl := Except.ok.inj h
    rcases readPart_sound hnul hread with ⟨hvalid, hrest⟩
    rw [List.append_nil] at hrest
    exact ⟨by simp, by simpa using hvalid, by rw [writeParts_singleton, hrest]⟩
  | case3 => simp at h
  | case4 rest part after hmore hle hread ih =>
    obtain ⟨others, hothers, rfl⟩ : ∃ others, readParts text after = .ok others ∧
        part :: others = parts := by
      cases hrest : readParts text after with
      | error fault => simp [hrest, Except.map] at h
      | ok others => exact ⟨others, rfl, Except.ok.inj (by rw [hrest] at h; exact h)⟩
    rcases readPart_sound hnul hread with ⟨hvalid, hrest⟩
    have hnul' : '\x00' ∉ after := fun hmem => hnul (by simp [hrest, hmem])
    rcases ih hnul' hothers with ⟨hne, hall, hwrite⟩
    rcases List.exists_cons_of_ne_nil hne with ⟨next, others, rfl⟩
    refine ⟨by simp, fun p hp => ?_, ?_⟩
    · rcases List.mem_cons.mp hp with rfl | hp
      · exact hvalid
      · exact hall p hp
    · rw [writeParts_cons_cons, hwrite, hrest]
  | case5 => simp at h

/-- Valid parts with dots between them are read back. -/
theorem readParts_write (text : String) {parts : List Part} (hne : parts ≠ [])
    (hall : ∀ part ∈ parts, part.IsValid) : readParts text (writeParts parts) = .ok parts := by
  induction parts with
  | nil => exact absurd rfl hne
  | cons part parts ih =>
    have hvalid := hall part (by simp)
    cases parts with
    | nil =>
      have hend := readPart_write text hvalid (.inl rfl)
      rw [List.append_nil] at hend
      rcases hend with ⟨hle, hread⟩
      rw [writeParts_singleton, readParts, hread]
    | cons next parts =>
      have hrest : ∀ p ∈ next :: parts, p.IsValid := fun p hp => hall p (by simp [hp])
      have hothers := ih (by simp) hrest
      have hmore := writeParts_ne_nil (List.cons_ne_nil next parts) hrest
      have hdot : ('.' :: writeParts (next :: parts)).head? = some '.' := rfl
      rcases readPart_write text hvalid (.inr hdot) with ⟨hle, hread⟩
      rw [writeParts_cons_cons, readParts, hread]
      simp [hmore, hothers, Except.map]

/-! ## Identifiers -/

theorem toSql_eq (parts : List Part) : toSql ⟨parts⟩ = String.ofList (writeParts parts) := rfl

/-- A valid part is written without NUL. -/
theorem nul_notMem_write {part : Part} (hvalid : part.IsValid) : '\x00' ∉ part.write := by
  cases part with
  | quoted name =>
    intro hmem
    simp only [Part.write, writeQuoted, List.mem_append, List.mem_cons, mem_doubleQuotes,
      Char.reduceEq, List.not_mem_nil, or_false, false_or] at hmem
    exact hvalid.2 hmem
  | unquoted name =>
    rcases hvalid with ⟨c, rest, hname, hstart, hnext⟩
    intro hmem
    rw [Part.write, hname] at hmem
    rcases List.mem_cons.mp hmem with rfl | hmem
    · exact absurd ((startsName_iff _).mpr hstart) (by decide)
    · exact absurd ((continuesName_iff _).mpr (hnext _ hmem)) (by decide)

/-- Valid parts are written without NUL. -/
theorem nul_notMem_writeParts {parts : List Part} (hall : ∀ part ∈ parts, part.IsValid) :
    '\x00' ∉ writeParts parts := by
  intro hmem
  rcases Text.mem_intercalate hmem with hdot | ⟨text, htext, hmem⟩
  · exact absurd hdot (by decide)
  · rcases List.mem_map.mp htext with ⟨part, hpart, rfl⟩
    exact nul_notMem_write (hall part hpart) hmem

/-- Reading gives the parts of a text exactly when they are valid and written as the text. -/
theorem parse_eq_ok_iff (text : String) (parts : List Part) :
    parse text = .ok ⟨parts⟩ ↔
      parts ≠ [] ∧ (∀ part ∈ parts, part.IsValid) ∧ toSql ⟨parts⟩ = text := by
  constructor
  · intro h
    unfold parse at h
    split at h
    · simp at h
    · split at h
      · simp at h
      · rename_i hnul
        split at h
        · simp at h
        · rename_i found hread
          obtain rfl := Identifier.mk.inj (Except.ok.inj h)
          rcases readParts_sound (by simpa using hnul) hread with ⟨hne, hall, hwrite⟩
          refine ⟨hne, hall, ?_⟩
          rw [toSql_eq, hwrite, String.ofList_toList]
  · rintro ⟨hne, hall, rfl⟩
    have hread := readParts_write (toSql ⟨parts⟩) hne hall
    have hnul := nul_notMem_writeParts hall
    have hnonempty := writeParts_ne_nil hne hall
    have hlist : (toSql ⟨parts⟩).toList = writeParts parts := by
      rw [toSql_eq, String.toList_ofList]
    have hempty : (toSql ⟨parts⟩).isEmpty = false := by
      rw [← hlist] at hnonempty
      simpa using hnonempty
    have hcontains : (writeParts parts).contains '\x00' = false := by simpa using hnul
    simp only [parse, hempty, hlist, hcontains, hread]
    simp

/-- What is no identifier is refused as such. -/
theorem parse_ok_or_invalid (text : String) :
    (∃ i, parse text = .ok i) ∨ ∃ fault, parse text = .error (.invalidIdent fault) := by
  unfold parse
  split
  · exact .inr ⟨_, rfl⟩
  · split
    · exact .inr ⟨_, rfl⟩
    · split
      · exact .inr ⟨_, rfl⟩
      · exact .inl ⟨_, rfl⟩

/-- A text that the grammar of identifiers has. -/
def IsGrammatical (text : String) : Prop :=
  ∃ parts : List Part, parts ≠ [] ∧ (∀ part ∈ parts, part.IsValid) ∧ toSql ⟨parts⟩ = text

/-- A text of the grammar is read, as an identifier that is written as the text. -/
theorem IsGrammatical.exists_parse {text : String} (h : IsGrammatical text) :
    ∃ i, parse text = .ok i ∧ i.toSql = text := by
  rcases h with ⟨parts, hparts⟩
  exact ⟨⟨parts⟩, (parse_eq_ok_iff text parts).mpr hparts, hparts.2.2⟩

/-- Exactly the texts that the grammar does not have are refused. -/
theorem exists_parse_error_iff (text : String) :
    (∃ fault, parse text = .error (.invalidIdent fault)) ↔ ¬IsGrammatical text := by
  constructor
  · rintro ⟨fault, hfault⟩ hgrammar
    rcases hgrammar.exists_parse with ⟨i, hi, _⟩
    rw [hfault] at hi
    simp at hi
  · intro hgrammar
    rcases parse_ok_or_invalid text with ⟨⟨parts⟩, hi⟩ | hfault
    · exact absurd ⟨parts, (parse_eq_ok_iff text parts).mp hi⟩ hgrammar
    · exact hfault

/-- Quoting takes exactly the texts that a quoted part can have. -/
theorem ofQuoted_eq_ok_iff (name : String) (i : Identifier) :
    ofQuoted name = .ok i ↔ (Part.quoted name).IsValid ∧ i = ⟨[.quoted name]⟩ := by
  unfold ofQuoted
  split
  · rename_i hempty
    have hname : name = "" := by simpa using hempty
    simp [Part.IsValid, hname]
  · rename_i hempty
    have hname : name ≠ "" := by simpa using hempty
    split
    · rename_i hnul
      have hmem : '\x00' ∈ name.toList := by simpa using hnul
      simp [Part.IsValid, hmem]
    · rename_i hnul
      have hmem : '\x00' ∉ name.toList := by simpa using hnul
      simp [Part.IsValid, hname, hmem, eq_comm]

/-- What is refused as a quoted name is refused as no identifier. -/
theorem ofQuoted_ok_or_invalid (name : String) :
    (∃ i, ofQuoted name = .ok i) ∨ ∃ fault, ofQuoted name = .error (.invalidIdent fault) := by
  unfold ofQuoted
  split
  · exact .inr ⟨_, rfl⟩
  · split
    · exact .inr ⟨_, rfl⟩
    · exact .inl ⟨_, rfl⟩

/-- Valid parts are known from how they are written. -/
theorem parts_eq_of_toSql_eq {parts others : List Part} (hne : parts ≠ []) (hne' : others ≠ [])
    (hall : ∀ part ∈ parts, part.IsValid) (hall' : ∀ part ∈ others, part.IsValid)
    (h : toSql ⟨parts⟩ = toSql ⟨others⟩) : parts = others := by
  have hparts := (parse_eq_ok_iff _ parts).mpr ⟨hne, hall, rfl⟩
  have hothers := (parse_eq_ok_iff _ others).mpr ⟨hne', hall', rfl⟩
  rw [h, hothers] at hparts
  exact (Identifier.mk.inj (Except.ok.inj hparts)).symm

/-- An identifier that was read or quoted has parts, all of them valid. -/
theorem areValid_parts {i : Identifier}
    (h : (∃ text, parse text = .ok i) ∨ ∃ name, ofQuoted name = .ok i) :
    i.parts ≠ [] ∧ ∀ part ∈ i.parts, part.IsValid := by
  rcases i with ⟨parts⟩
  rcases h with ⟨text, htext⟩ | ⟨name, hname⟩
  · rcases (parse_eq_ok_iff text parts).mp htext with ⟨hne, hall, _⟩
    exact ⟨hne, hall⟩
  · rcases (ofQuoted_eq_ok_iff name _).mp hname with ⟨hvalid, heq⟩
    obtain rfl := Identifier.mk.inj heq
    exact ⟨by simp, by simpa using hvalid⟩

/-- An identifier that was read or quoted is read back from its code. -/
theorem parse_toSql {i : Identifier}
    (h : (∃ text, parse text = .ok i) ∨ ∃ name, ofQuoted name = .ok i) :
    parse i.toSql = .ok i := by
  rcases areValid_parts h with ⟨hne, hall⟩
  exact (parse_eq_ok_iff i.toSql i.parts).mpr ⟨hne, hall, rfl⟩

/-- Reading accepts exactly the grammar of identifiers and inverts writing.  A text is read
as the valid parts that are written so, and any other is refused; different valid parts
are written differently; and every identifier that was read, or made by quoting a text
that is not empty and has no NUL, is read back from its code. -/
theorem parse_accepts_grammar :
    (∀ (text : String) (parts : List Part), parse text = .ok ⟨parts⟩ ↔
      parts ≠ [] ∧ (∀ part ∈ parts, part.IsValid) ∧ toSql ⟨parts⟩ = text) ∧
    (∀ text, (∀ i, parse text ≠ .ok i) → ∃ fault, parse text = .error (.invalidIdent fault)) ∧
    (∀ text i, parse text = .ok i → i.toSql = text) ∧
    (∀ parts others : List Part, parts ≠ [] → others ≠ [] →
      (∀ part ∈ parts, part.IsValid) → (∀ part ∈ others, part.IsValid) → parts ≠ others →
      toSql ⟨parts⟩ ≠ toSql ⟨others⟩) ∧
    (∀ i, (∃ text, parse text = .ok i) ∨ (∃ name, ofQuoted name = .ok i) →
      parse i.toSql = .ok i) ∧
    (∀ name i, ofQuoted name = .ok i ↔
      (name ≠ "" ∧ '\x00' ∉ name.toList) ∧ i = ⟨[.quoted name]⟩) ∧
    ∀ name, (∀ i, ofQuoted name ≠ .ok i) →
      ∃ fault, ofQuoted name = .error (.invalidIdent fault) := by
  refine ⟨parse_eq_ok_iff, ?_, ?_, ?_, fun i h => parse_toSql h, ofQuoted_eq_ok_iff, ?_⟩
  · intro text h
    rcases parse_ok_or_invalid text with ⟨i, hi⟩ | hfault
    · exact absurd hi (h i)
    · exact hfault
  · intro text i h
    rcases i with ⟨parts⟩
    exact ((parse_eq_ok_iff text parts).mp h).2.2
  · intro parts others hne hne' hall hall' hdiff heq
    exact hdiff (parts_eq_of_toSql_eq hne hne' hall hall' heq)
  · intro name h
    rcases ofQuoted_ok_or_invalid name with ⟨i, hi⟩ | hfault
    · exact absurd hi (h i)
    · exact hfault

/-- A name with a quote and a dot, after an unquoted one. -/
theorem parse_accepts_grammar_quoted :
    ([.unquoted "a", .quoted "b.\"c"] : List Part) ≠ [] ∧
      (∀ part ∈ ([.unquoted "a", .quoted "b.\"c"] : List Part), part.IsValid) ∧
      parse (toSql ⟨[.unquoted "a", .quoted "b.\"c"]⟩) =
        .ok ⟨[.unquoted "a", .quoted "b.\"c"]⟩ := by
  have hall : ∀ part ∈ ([.unquoted "a", .quoted "b.\"c"] : List Part), part.IsValid := by
    intro part hpart
    simp only [List.mem_cons, List.not_mem_nil, or_false] at hpart
    rcases hpart with rfl | rfl
    · exact ⟨'a', [], rfl, .inl (.inr ⟨by decide, by decide⟩), by simp⟩
    · exact ⟨by decide, by decide⟩
  exact ⟨List.cons_ne_nil _ _, hall,
    (parse_accepts_grammar.1 _ _).mpr ⟨List.cons_ne_nil _ _, hall, rfl⟩⟩

end SqlFragments.Identifier
