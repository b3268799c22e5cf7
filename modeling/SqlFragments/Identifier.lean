import SqlFragments.Item

/-!
# Validated identifiers

An identifier cannot be bound as a parameter, so a name from outside enters a
command as code only through this type.  Its parts are separated by dots; an
unquoted part is a letter or an underscore and then letters, digits, underscores
and dollar signs, all of them ASCII, and a quoted part is any non-empty text
without NUL, written between double quotes with every double quote doubled.

Main results:

- `readQuoted_writeQuoted`: a quoted name is read back as it was written.
- `readBare_append`: an unquoted name is read up to the dot or the end.
-/

namespace SqlFragments

/-! ## Identifiers and their writing -/

/-- One part of an identifier. -/
inductive Identifier.Part where
  | unquoted (name : String)
  | quoted (name : String)
deriving DecidableEq, Repr

/-- An identifier: its parts from left to right. -/
structure Identifier where
  parts : List Identifier.Part
deriving DecidableEq, Repr

namespace Identifier

/-- A text with every double quote doubled. -/
def doubleQuotes : List Char → List Char
  | [] => []
  | c :: rest => if c = '"' then '"' :: '"' :: doubleQuotes rest else c :: doubleQuotes rest

/-- A name between double quotes. -/
def writeQuoted (name : List Char) : List Char :=
  '"' :: doubleQuotes name ++ ['"']

/-- A part as code. -/
def Part.write : Part → List Char
  | .unquoted name => name.toList
  | .quoted name => writeQuoted name.toList

/-- An identifier as code: its parts with a dot between neighbours. -/
def toSql (identifier : Identifier) : String :=
  String.ofList (['.'].intercalate (identifier.parts.map Part.write))

/-- An identifier as a trusted item.  It enters a query as code only, and stands for no query
of its own. -/
def asItem (identifier : Identifier) : Item := .code identifier.toSql

/-! ## Reading one part -/

/-- A character that an unquoted part can start with. -/
def startsName (c : Char) : Bool := c == '_' || c.isAlpha

/-- A character that an unquoted part can go on with. -/
def continuesName (c : Char) : Bool := c == '_' || c == '$' || c.isAlphanum

/-- Reads a quoted name after its opening quote: the name and what follows the
closing quote. -/
def readQuoted : List Char → Option (List Char × List Char)
  | [] => none
  | '"' :: '"' :: rest => (readQuoted rest).map fun (name, after) => ('"' :: name, after)
  | '"' :: rest => some ([], rest)
  | c :: rest => (readQuoted rest).map fun (name, after) => (c :: name, after)

/-- Reads an unquoted name up to a dot or the end, given which characters it can
go on with; the first other character is refused. -/
def readBare (allowed : Char → Bool) : List Char → Except Char (List Char × List Char)
  | [] => .ok ([], [])
  | c :: rest =>
    if c = '.' then .ok ([], c :: rest)
    else if allowed c then
      (readBare continuesName rest).map fun (name, after) => (c :: name, after)
    else .error c

/-- Reading a quoted name takes at least its closing quote. -/
theorem length_readQuoted_lt {text name after : List Char}
    (h : readQuoted text = some (name, after)) : after.length < text.length := by
  fun_induction readQuoted text generalizing name with
  | case1 => simp at h
  | case2 rest ih =>
    obtain ⟨⟨inner, remaining⟩, hinner, heq⟩ := Option.map_eq_some_iff.mp h
    obtain ⟨_, rfl⟩ := Prod.mk.inj heq
    have := ih hinner
    simp only [List.length_cons]
    omega
  | case3 rest =>
    obtain ⟨_, rfl⟩ := Prod.mk.inj (Option.some.inj h)
    simp
  | case4 c rest _ _ ih =>
    obtain ⟨⟨inner, remaining⟩, hinner, heq⟩ := Option.map_eq_some_iff.mp h
    obtain ⟨_, rfl⟩ := Prod.mk.inj heq
    have := ih hinner
    simp only [List.length_cons]
    omega

/-- Reading an unquoted name leaves no more text than there was. -/
theorem length_readBare_le {allowed : Char → Bool} {text name after : List Char}
    (h : readBare allowed text = .ok (name, after)) : after.length ≤ text.length := by
  induction text generalizing allowed name after with
  | nil =>
    obtain ⟨_, rfl⟩ := Prod.mk.inj (Except.ok.inj h)
    simp
  | cons c rest ih =>
    simp only [readBare] at h
    split at h
    · obtain ⟨_, rfl⟩ := Prod.mk.inj (Except.ok.inj h)
      simp
    · split at h
      · cases hrest : readBare continuesName rest with
        | error d => simp [hrest, Except.map] at h
        | ok found =>
          simp only [hrest, Except.map, Except.ok.injEq, Prod.mk.injEq] at h
          have : found.2.length ≤ rest.length := ih hrest
          simp only [← h.2, List.length_cons]
          omega
      · simp at h

/-- A quoted name is read back as it was written, whatever follows that is no quote. -/
theorem readQuoted_writeQuoted (name : List Char) {after : List Char}
    (hafter : after.head? ≠ some '"') :
    readQuoted (doubleQuotes name ++ '"' :: after) = some (name, after) := by
  induction name with
  | nil =>
    cases after with
    | nil => rfl
    | cons d after =>
      have hd : d ≠ '"' := by simpa using hafter
      simp [doubleQuotes, readQuoted, hd]
  | cons c name ih =>
    simp only [doubleQuotes]
    split
    · rename_i hc
      subst hc
      simp [readQuoted, ih]
    · rename_i hc
      simp [readQuoted, hc, ih]

/-- An unquoted name is read up to the dot or the end that follows it. -/
theorem readBare_append {allowed : Char → Bool} {c : Char} {name after : List Char}
    (hfirst : allowed c = true) (hdot : allowed '.' = false)
    (hname : ∀ d ∈ name, continuesName d = true) (hafter : after = [] ∨ after.head? = some '.') :
    readBare allowed (c :: name ++ after) = .ok (c :: name, after) := by
  have hstop : ∀ ok, readBare ok after = .ok ([], after) := by
    intro ok
    rcases hafter with rfl | hafter
    · rfl
    · cases after with
      | nil => rfl
      | cons d after =>
        have hd : d = '.' := by simpa using hafter
        simp [readBare, hd]
  have hrest : ∀ rest : List Char, (∀ d ∈ rest, continuesName d = true) →
      readBare continuesName (rest ++ after) = .ok (rest, after) := by
    intro rest hall
    induction rest with
    | nil => exact hstop continuesName
    | cons d rest ih =>
      have hd := hall d (by simp)
      have hne : d ≠ '.' := by
        rintro rfl
        exact absurd hd (by decide)
      simp [readBare, hne, hd, ih fun e he => hall e (by simp [he]), Except.map]
  have hne : c ≠ '.' := by
    rintro rfl
    simp [hdot] at hfirst
  simp [readBare, hne, hfirst, hrest name hname, Except.map]

/-! ## Reading an identifier -/

/-- Reads the part that `rest` starts with; `text` is the whole identifier, for the
wording of faults. -/
def readPart (text : String) (rest : List Char) :
    Except IdentFault (Part × { after : List Char // after.length ≤ rest.length }) :=
  match rest with
  | '"' :: quoted =>
    match h : readQuoted quoted with
    | none => .error (.unclosed text)
    | some (name, after) =>
      if name.isEmpty then .error .emptyQuoted
      else .ok (.quoted (String.ofList name),
        ⟨after, Nat.le_succ_of_le (Nat.le_of_lt (length_readQuoted_lt h))⟩)
  | bare =>
    match h : readBare startsName bare with
    | .error c => .error (.character c text)
    | .ok (name, after) =>
      if name.isEmpty then .error (.emptyPart text)
      else .ok (.unquoted (String.ofList name), ⟨after, length_readBare_le h⟩)

/-- Reads parts with single dots between them to the end. -/
def readParts (text : String) (rest : List Char) : Except IdentFault (List Part) :=
  match readPart text rest with
  | .error fault => .error fault
  | .ok (part, ⟨[], _⟩) => .ok [part]
  | .ok (part, ⟨c :: after, _⟩) =>
    if c = '.' then
      if after.isEmpty then .error (.trailingDot text)
      else (readParts text after).map (part :: ·)
    else .error (.glued c text)
termination_by rest.length
decreasing_by
  simp_all only [List.length_cons]
  omega

/-- The identifier that a text writes. -/
def parse (text : String) : Except Error Identifier :=
  if text.isEmpty then .error (.invalidIdent .empty)
  else if text.toList.contains '\x00' then .error (.invalidIdent .nul)
  else match readParts text text.toList with
    | .error fault => .error (.invalidIdent fault)
    | .ok parts => .ok ⟨parts⟩

/-- The identifier of one quoted part. -/
def ofQuoted (name : String) : Except Error Identifier :=
  if name.isEmpty then .error (.invalidIdent .emptyQuoted)
  else if name.toList.contains '\x00' then .error (.invalidIdent .nul)
  else .ok ⟨[.quoted name]⟩

end Identifier

end SqlFragments
