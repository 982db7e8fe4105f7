import GpuListing.Decimal.Binary64
import GpuListing.Text.Numeral

/-! # Numbers in TOML

Integers of 64 bits are decimal, or hexadecimal, octal or binary without a sign. A float has a fraction, an
exponent or both, or is an infinity or no number. Single underscores may stand between digits, and a decimal
number has no zero in front. -/

namespace GpuListing.Toml

/-- Digits with single underscores between some of them, without the underscores. -/
def digits? (isDigit : Char → Bool) : List Char → Option (List Char)
  | [] => none
  | [c] => if isDigit c then some [c] else none
  | c :: '_' :: rest => if isDigit c then (digits? isDigit rest).map (c :: ·) else none
  | c :: rest => if isDigit c then (digits? isDigit rest).map (c :: ·) else none

/-- Decimal digits without a zero in front. -/
def decimal? (text : List Char) : Option (List Char) := do
  let digits ← digits? Char.isDigit text
  match digits with
  | '0' :: _ :: _ => none
  | _ => some digits

/-- The integer if it has 64 bits. -/
def inRange? (n : Int) : Option Int := if Int64.minValue.toInt ≤ n ∧ n ≤ Int64.maxValue.toInt then some n else none

/-- The integer that digits of a base write. -/
def inBase? (base : Nat) (text : List Char) : Option Int := do
  let digits ← digits? (Text.isDigitOf base) text
  inRange? (Text.ofDigits base digits)

/-- The integer that a text writes. -/
def integer? (text : List Char) : Option Int :=
  match text with
  | '0' :: 'x' :: rest => inBase? 16 rest
  | '0' :: 'o' :: rest => inBase? 8 rest
  | '0' :: 'b' :: rest => inBase? 2 rest
  | _ => do
    let (negative, rest) := Text.splitSign text
    let digits ← decimal? rest
    let n : Int := Text.ofDecimal digits
    inRange? (if negative then -n else n)

/-- The exponent that a text writes; none is zero. -/
def exponent? : Option (List Char) → Option Int
  | none => some 0
  | some text => do
    let (negative, rest) := Text.splitSign text
    let digits ← digits? Char.isDigit rest
    let n : Int := Text.ofDecimal digits
    return if negative then -n else n

/-- The digits of a fraction; none are no digits. -/
def fraction? : Option (List Char) → Option (List Char)
  | none => some []
  | some text => digits? Char.isDigit text

/-- The finite number that a text writes with a fraction or an exponent. -/
def finite? (negative : Bool) (text : List Char) : Option Binary64 := do
  let (mantissa, exponent) := Text.splitAtFirst Text.isExponentMark text
  let (whole, fraction) := Text.splitAtFirst (· = '.') mantissa
  if exponent.isNone ∧ fraction.isNone then none
  else
    let whole ← decimal? whole
    let fraction ← fraction? fraction
    let exponent ← exponent? exponent
    match Binary64.ofDecimal negative (Text.ofDecimal (whole ++ fraction)) (exponent - fraction.length) with
    | .finite negative mantissa exponent => some (.finite negative mantissa exponent)
    | _ => none

/-- The float that a text writes. -/
def float? (text : List Char) : Option Binary64 :=
  let (negative, rest) := Text.splitSign text
  if rest = "inf".toList then some (.infinite negative)
  else if rest = "nan".toList then some .nan
  else finite? negative rest

end GpuListing.Toml
