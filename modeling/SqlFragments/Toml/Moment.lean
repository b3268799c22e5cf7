import SqlFragments.Number.Decimal

/-!
# Dates and times of TOML

A moment is a date, a time of day, or both with a mark between them.  Both together
may have an offset from universal time.  A time may leave its second out, and a minute
may have a leap second.

Main results:

- `readDate_valid`: a date that has been read is a day of the calendar.
-/

namespace SqlFragments

/-- A day. -/
structure Toml.Date where
  year : Nat
  month : Nat
  day : Nat
deriving DecidableEq, Repr

/-- A time of day. -/
structure Toml.Time where
  hour : Nat
  minute : Nat
  second : Nat
  /-- The digits of the fraction of the second. -/
  fraction : List Nat
deriving DecidableEq, Repr

/-- A date, a time of day, or both. -/
inductive Toml.Moment where
  | date (date : Toml.Date)
  | time (time : Toml.Time)
  /-- Both, and by how many minutes the time is ahead of universal time, if that is known. -/
  | both (date : Toml.Date) (time : Toml.Time) (offset : Option Int)
deriving DecidableEq, Repr

namespace Toml

open Number

/-! ## The calendar -/

/-- Whether a year has a leap day. -/
def isLeapYear (year : Nat) : Bool := year % 4 == 0 && (year % 100 != 0 || year % 400 == 0)

/-- The number of days in a month; a month that does not exist has none. -/
def daysInMonth (year : Nat) : Nat → Nat
  | 1 | 3 | 5 | 7 | 8 | 10 | 12 => 31
  | 4 | 6 | 9 | 11 => 30
  | 2 => if isLeapYear year then 29 else 28
  | _ => 0

/-- Whether a date is a day of the calendar. -/
def Date.isValid (date : Date) : Bool :=
  1 ≤ date.day && date.day ≤ daysInMonth date.year date.month

/-! ## Parts -/

/-- Reads a number of exactly `count` digits after those that stand for `n`. -/
def readFixed (n : Nat) : (count : Nat) → List Char → Option (Nat × List Char)
  | 0, text => some (n, text)
  | _ + 1, [] => none
  | count + 1, c :: rest => (digitValue c).bind fun d => readFixed (10 * n + d) count rest

/-- Reads a number of two digits that is at most `bound`. -/
def readPair (bound : Nat) (text : List Char) : Option (Nat × List Char) :=
  (readFixed 0 2 text).filter fun (n, _) => n ≤ bound

/-- The text after a sign. -/
def skipSign (sign : Char) : List Char → Option (List Char)
  | [] => none
  | c :: rest => if c = sign then some rest else none

/-- Reads a date. -/
def readDate (text : List Char) : Option (Date × List Char) := do
  let (year, rest) ← readFixed 0 4 text
  let (month, rest) ← readFixed 0 2 (← skipSign '-' rest)
  let (day, rest) ← readFixed 0 2 (← skipSign '-' rest)
  if (Date.mk year month day).isValid then return (⟨year, month, day⟩, rest) else none

/-- A date that has been read is a day of the calendar. -/
theorem readDate_valid {text rest : List Char} {date : Date}
    (h : readDate text = some (date, rest)) : date.isValid = true := by
  simp only [readDate, bind, Option.bind_eq_some_iff] at h
  obtain ⟨_, _, _, _, _, _, _, _, _, _, h⟩ := h
  split at h
  · rename_i hvalid
    cases h
    exact hvalid
  · simp at h

/-- Reads a point and the digits after it, if there is a point. -/
def readFraction : List Char → Option (List Nat × List Char)
  | '.' :: rest => if (readDigits rest).1.isEmpty then none else some (readDigits rest)
  | text => some ([], text)

/-- Reads a time of day. -/
def readTime (text : List Char) : Option (Time × List Char) := do
  let (hour, rest) ← readPair 23 text
  let (minute, rest) ← readPair 59 (← skipSign ':' rest)
  match rest with
  | ':' :: rest =>
    let (second, rest) ← readPair 60 rest
    let (fraction, rest) ← readFraction rest
    return (⟨hour, minute, second, fraction⟩, rest)
  | rest => return (⟨hour, minute, 0, []⟩, rest)

/-- Reads how many minutes an offset takes, after its sign. -/
def readMinutes (text : List Char) : Option (Int × List Char) := do
  let (hour, rest) ← readPair 23 text
  let (minute, rest) ← readPair 59 (← skipSign ':' rest)
  return (60 * hour + minute, rest)

/-- Reads an offset from universal time, if there is one. -/
def readOffset : List Char → Option (Option Int × List Char)
  | 'Z' :: rest => some (some 0, rest)
  | 'z' :: rest => some (some 0, rest)
  | '+' :: rest => (readMinutes rest).map fun (n, rest) => (some n, rest)
  | '-' :: rest => (readMinutes rest).map fun (n, rest) => (some (-n), rest)
  | text => some (none, text)

/-! ## Moments -/

/-- The text of the time after a date, if a time follows.  A space is a mark of a time only
in front of a digit. -/
def skipTimeMark : List Char → Option (List Char)
  | 'T' :: rest => some rest
  | 't' :: rest => some rest
  | ' ' :: c :: rest => if c.isDigit then some (c :: rest) else none
  | _ => none

/-- Reads a moment. -/
def readMoment (text : List Char) : Option (Moment × List Char) :=
  match readDate text with
  | none => (readTime text).map fun (time, rest) => (.time time, rest)
  | some (date, rest) =>
    match skipTimeMark rest with
    | none => some (.date date, rest)
    | some rest => do
      let (time, rest) ← readTime rest
      let (offset, rest) ← readOffset rest
      return (.both date time offset, rest)

end Toml

end SqlFragments
