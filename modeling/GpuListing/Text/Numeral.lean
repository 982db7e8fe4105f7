/-! # Numerals

Numbers as they are written: a sign, digits in a base up to sixteen with the highest one first, and marks
between the parts. -/

namespace GpuListing.Text

/-- The value of a digit; letters of either case go on from ten. -/
def digitValue (c : Char) : Nat := if c.isDigit then c.toNat - '0'.toNat else c.toLower.toNat - 'a'.toNat + 10

/-- The number that digits write in a base. -/
def ofDigits (base : Nat) (digits : List Char) : Nat := digits.foldl (fun n c => base * n + digitValue c) 0

/-- A digit of a base up to sixteen. -/
def isDigitOf (base : Nat) (c : Char) : Bool :=
  (c.isDigit || ('a' ≤ c && c ≤ 'f') || ('A' ≤ c && c ≤ 'F')) && digitValue c < base

/-- The number that a text writes in a base, if it consists of digits. -/
def ofDigits? (base : Nat) (text : List Char) : Option Nat :=
  if text.all (isDigitOf base) then some (ofDigits base text) else none

/-- The number that decimal digits write. -/
def ofDecimal (digits : List Char) : Nat := ofDigits 10 digits

/-- A text without its sign, and whether the sign is a minus. -/
def splitSign : List Char → Bool × List Char
  | '+' :: rest => (false, rest)
  | '-' :: rest => (true, rest)
  | text => (false, text)

/-- A text as far as the first character of a class, and what follows that character if there is one. -/
def splitAtFirst (isMark : Char → Bool) (text : List Char) : List Char × Option (List Char) :=
  (text.takeWhile fun c => !isMark c,
    match text.dropWhile fun c => !isMark c with
    | [] => none
    | _ :: rest => some rest)

/-- The letter before the exponent of a number. -/
def isExponentMark (c : Char) : Bool := c = 'e' || c = 'E'

end GpuListing.Text
