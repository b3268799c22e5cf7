import SqlFragments.Toml.Moment
import SqlFragments.Toml.Numeral

/-!
# Documents of TOML

A document is a table.  Headers open tables and arrays of tables along a path of
keys, and a dotted key opens tables inside the current one.  How a table came to be
decides whether it may be opened again or be given more entries.

Main results:

- `addEntry_ok_present`: an entry that has been added is found.
- `addEntry_twice`: a key cannot be given a value twice.
-/

namespace SqlFragments

/-- How a table came to be. -/
inductive Toml.Origin where
  /-- By a header of its own. -/
  | header
  /-- As a table on the path of a header. -/
  | path
  /-- By a dotted key. -/
  | dotted
  /-- Between braces. -/
  | inline
deriving DecidableEq, Repr

/-- A value of a document. -/
inductive Toml where
  | string (s : String)
  | bool (b : Bool)
  | number (n : Toml.Numeral)
  | moment (m : Toml.Moment)
  | array (elements : List Toml)
  | table (origin : Toml.Origin) (entries : List (String × Toml))
  /-- The tables that headers between doubled brackets have opened. -/
  | tables (tables : List (List (String × Toml)))
deriving Repr

namespace Toml

/-- The entries of a table, in the order in which their keys were first given. -/
abbrev Entries := List (String × Toml)

/-- The value under a key. -/
def find? (key : String) (entries : Entries) : Option Toml :=
  (entries.find? (·.1 == key)).map (·.2)

/-- Puts another value under a key. -/
def replace (key : String) (v : Toml) (entries : Entries) : Entries :=
  entries.map fun entry => if entry.1 == key then (key, v) else entry

/-- Adds an entry under a key that has no value yet. -/
def insertNew (key : String) (v : Toml) (entries : Entries) : Option Entries :=
  match find? key entries with
  | none => some (entries ++ [(key, v)])
  | some _ => none

/-- Applies a function to the entries of the last of several tables. -/
def modifyLast (f : Entries → Option Entries) : List Entries → Option (List Entries)
  | [] => none
  | [last] => (f last).map ([·])
  | first :: rest => (modifyLast f rest).map (first :: ·)

/-- Applies a function to the entries of the table under a key that stands before the
last one of a dotted key, or to no entries if the key has no value.  The table may not
have a header of its own.  The function learns whether a dotted key has made the table. -/
def growTable (key : String) (f : Bool → Entries → Option Entries) (entries : Entries) :
    Option Entries :=
  match find? key entries with
  | none => (f true []).map fun inner => entries ++ [(key, .table .dotted inner)]
  | some (.table .dotted inner) =>
    (f true inner).map fun inner => replace key (.table .dotted inner) entries
  | some (.table .path inner) =>
    (f false inner).map fun inner => replace key (.table .path inner) entries
  | some (.tables opened) =>
    (modifyLast (f false) opened).map fun changed => replace key (.tables changed) entries
  | some _ => none

/-- Adds an entry under the keys of a dotted key, if the table that gets the last key is
one that `takes` it. -/
def addBelow : List String → Toml → (takes : Bool) → Entries → Option Entries
  | [], _, _, _ => none
  | [key], v, takes, entries => if takes then insertNew key v entries else none
  | key :: keys, v, _, entries => growTable key (addBelow keys v) entries

/-- Adds an entry under a dotted key.  The last key goes into the table itself or into one
that a dotted key has made. -/
def addEntry (path : List String) (v : Toml) (entries : Entries) : Option Entries :=
  addBelow path v true entries

/-- Applies a function to the entries of the table under a key, or to no entries if
there is no such table. -/
def modifyTable (key : String) (f : Entries → Option Entries) (entries : Entries) :
    Option Entries :=
  match find? key entries with
  | none => (f []).map fun inner => entries ++ [(key, .table .path inner)]
  | some (.table .inline _) => none
  | some (.table origin inner) =>
    (f inner).map fun inner => replace key (.table origin inner) entries
  | some (.tables opened) =>
    (modifyLast f opened).map fun changed => replace key (.tables changed) entries
  | some _ => none

/-- Applies a function to the entries of the table at the end of a path. -/
def modifyPath : List String → (Entries → Option Entries) → Entries → Option Entries
  | [], f, entries => f entries
  | key :: keys, f, entries => modifyTable key (modifyPath keys f) entries

/-- Opens a table by a header that names its last key. -/
def openTable (key : String) (entries : Entries) : Option Entries :=
  match find? key entries with
  | none => some (entries ++ [(key, .table .header [])])
  | some (.table .path inner) => some (replace key (.table .header inner) entries)
  | some _ => none

/-- Opens one more table of an array by a header that names its last key. -/
def openElement (key : String) (entries : Entries) : Option Entries :=
  match find? key entries with
  | none => some (entries ++ [(key, .tables [[]])])
  | some (.tables opened) => some (replace key (.tables (opened ++ [[]])) entries)
  | some _ => none

/-- One statement of a document. -/
inductive Statement where
  | table (path : List String)
  | element (path : List String)
  | entry (path : List String) (v : Toml)
deriving Repr

/-- A document under construction: its entries, and the path of the current table. -/
structure Progress where
  entries : Entries
  current : List String

/-- A document after one more statement. -/
def Progress.add (progress : Progress) : Statement → Option Progress
  | .table path =>
    match path.getLast? with
    | none => none
    | some key =>
      (modifyPath path.dropLast (openTable key) progress.entries).map (⟨·, path⟩)
  | .element path =>
    match path.getLast? with
    | none => none
    | some key =>
      (modifyPath path.dropLast (openElement key) progress.entries).map (⟨·, path⟩)
  | .entry path v =>
    (modifyPath progress.current (addEntry path v) progress.entries).map fun entries =>
      { progress with entries := entries }

/-- The entries of a document of statements. -/
def ofStatements (statements : List Statement) : Option Entries :=
  (statements.foldlM Progress.add ⟨[], []⟩).map Progress.entries

/-- An entry that has been added is found. -/
theorem addEntry_ok_present {key : String} {v : Toml} {entries after : Entries}
    (h : addEntry [key] v entries = some after) : find? key after = some v := by
  simp only [addEntry, addBelow, insertNew, ↓reduceIte] at h
  split at h
  · rename_i hnone
    cases h
    simp only [find?, Option.map_eq_none_iff] at hnone
    simp [find?, List.find?_append, hnone]
  · simp at h

/-- A key cannot be given a value twice. -/
theorem addEntry_twice {key : String} {v w : Toml} {entries after : Entries}
    (h : addEntry [key] v entries = some after) : addEntry [key] w after = none := by
  simp [addEntry, addBelow, insertNew, addEntry_ok_present h]

end Toml

end SqlFragments
