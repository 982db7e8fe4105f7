import GpuListing.Text.Numeral
import GpuListing.Toml.Text

/-! # Dates and times in TOML

A moment is a date, a time of day, or both with a `T` or a blank between; only both together have an offset.
Seconds may be left out, and only they have a fraction. Days are those of the calendar, and a minute may have
a leap second. -/

namespace GpuListing.Toml

/-- A number of so many decimal digits, within bounds. -/
def fixedNumber (width least greatest : Nat) : Reader Nat := fun text =>
  let digits := text.take width
  let n := Text.ofDecimal digits
  if digits.length = width ∧ digits.all Char.isDigit = true ∧ least ≤ n ∧ n ≤ greatest then
    some (n, text.drop width)
  else none

/-- The text after a character at its start. -/
def expect (c : Char) : List Char → Option (List Char)
  | [] => none
  | d :: rest => if d = c then some rest else none

/-- A year with a leap day. -/
def isLeapYear (year : Nat) : Bool := year % 4 = 0 && (year % 100 ≠ 0 || year % 400 = 0)

/-- The number of days of a month. -/
def daysOf (year month : Nat) : Nat :=
  if month = 2 then (if isLeapYear year then 29 else 28)
  else if month = 4 ∨ month = 6 ∨ month = 9 ∨ month = 11 then 30
  else 31

/-- The text after a date. -/
def date (text : List Char) : Option (List Char) := do
  let (year, rest) ← fixedNumber 4 0 9999 text
  let (month, rest) ← fixedNumber 2 1 12 (← expect '-' rest)
  let (_, rest) ← fixedNumber 2 1 (daysOf year month) (← expect '-' rest)
  return rest

/-- The text after the fraction of a second, if there is one. -/
def secondFraction : List Char → Option (List Char)
  | '.' :: rest => if (rest.takeWhile Char.isDigit).isEmpty then none else some (rest.dropWhile Char.isDigit)
  | text => some text

/-- The text after a time of day. -/
def time (text : List Char) : Option (List Char) := do
  let (_, rest) ← fixedNumber 2 0 23 text
  let (_, rest) ← fixedNumber 2 0 59 (← expect ':' rest)
  match rest with
  | ':' :: rest =>
    let (_, rest) ← fixedNumber 2 0 60 rest
    secondFraction rest
  | _ => return rest

/-- The whole text is an offset, or is empty. -/
def isOffset : List Char → Bool
  | [] => true
  | ['Z'] => true
  | ['z'] => true
  | c :: rest =>
    (c = '+' || c = '-') && (do
      let (_, rest) ← fixedNumber 2 0 23 rest
      let (_, rest) ← fixedNumber 2 0 59 (← expect ':' rest)
      return rest) = some []

/-- The whole text is a time of day, which an offset may follow. -/
def isTimeWithOffset (text : List Char) : Bool :=
  match time text with
  | some rest => isOffset rest
  | none => false

/-- The whole text is a date. -/
def isDate (text : List Char) : Bool := date text = some []

/-- The whole text is a moment without a blank. -/
def isMoment (text : List Char) : Bool :=
  time text = some [] ||
    match date text with
    | none => false
    | some [] => true
    | some (c :: rest) => (c = 'T' || c = 't') && isTimeWithOffset rest

end GpuListing.Toml
