import WasmBuild.Toml.Number

/-!
# Dates and times

Dates of the calendar, times of the day with an optional fraction of a second, and both together
with an optional offset. Only their being well formed matters here, so a reader gives back what
follows.
-/
namespace WasmBuild.Toml

/-- A number of exactly some digits at the start of a text. -/
def fixedDigits : Nat → Nat → Reader Nat
  | 0, value, text => some (value, text)
  | count + 1, value, c :: rest =>
    if c.isDigit then fixedDigits count (value * 10 + (c.toNat - '0'.toNat)) rest else none
  | _ + 1, _, [] => none

/-- A number of two digits within bounds. -/
def twoDigits (low high : Nat) : Reader Nat := fun text =>
  (fixedDigits 2 0 text).bind fun (n, rest) =>
    if low ≤ n ∧ n ≤ high then some (n, rest) else none

/-- What follows a certain character. -/
def after? (c : Char) : List Char → Option (List Char)
  | d :: rest => if c = d then some rest else none
  | [] => none

def isLeapYear (year : Nat) : Bool := (year % 4 == 0 && year % 100 != 0) || year % 400 == 0

def daysIn (year month : Nat) : Nat :=
  if month = 2 then (if isLeapYear year then 29 else 28)
  else if month = 4 ∨ month = 6 ∨ month = 9 ∨ month = 11 then 30
  else 31

def date? (text : List Char) : Option (List Char) := do
  let (year, text) ← fixedDigits 4 0 text
  let text ← after? '-' text
  let (month, text) ← twoDigits 1 12 text
  let text ← after? '-' text
  let (_, text) ← twoDigits 1 (daysIn year month) text
  return text

/-- What follows an optional fraction of a second. -/
def skipFraction (text : List Char) : List Char :=
  match text with
  | '.' :: d :: rest => if d.isDigit then rest.dropWhile Char.isDigit else text
  | _ => text

/-- What follows a time of the day. The last minute may have a second more. -/
def time? (text : List Char) : Option (List Char) := do
  let (_, text) ← twoDigits 0 23 text
  let text ← after? ':' text
  let (_, text) ← twoDigits 0 59 text
  let text ← after? ':' text
  let (_, text) ← twoDigits 0 60 text
  return skipFraction text

/-- What follows an optional offset from universal time. -/
def offset? (text : List Char) : Option (List Char) :=
  match text with
  | c :: rest =>
    if c = 'Z' ∨ c = 'z' then some rest
    else if c = '+' ∨ c = '-' then do
      let (_, text) ← twoDigits 0 23 rest
      let text ← after? ':' text
      let (_, text) ← twoDigits 0 59 text
      return text
    else some text
  | [] => some text

/-- What follows the time that may stand after a date, behind a letter or a blank. -/
def timeOfDate? (text : List Char) : Option (List Char) :=
  match text with
  | c :: rest =>
    if c = 'T' ∨ c = 't' ∨ c = ' ' then
      match time? rest with
      | some rest => offset? rest
      | none => some text
    else some text
  | [] => some text

/-- What follows a date, a time or both. -/
def dateTime? (text : List Char) : Option (List Char) :=
  match date? text with
  | some rest => timeOfDate? rest
  | none => time? text

end WasmBuild.Toml
