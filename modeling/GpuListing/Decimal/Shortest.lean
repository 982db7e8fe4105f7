import GpuListing.Decimal.Binary64

/-! # Shortest decimals

The decimals that round to a number fill an interval around it. On the coarsest grid of multiples of a power
of ten that meets the interval, the number's two neighbours are tried, and of two hits the nearer one is taken.
A style tells which one is taken of two that are equally near, and which numbers are written positionally, with
at least one digit on either side of the point; the others have one digit in front of the point, and a power of
ten with its sign. -/

namespace GpuListing.Binary64

/-- How numbers are written. -/
structure Style where
  /-- Of two decimals that are equally near, the one with an even last digit is taken, otherwise the upper one. -/
  tiesToEven : Bool
  /-- The least and the greatest power of ten at the first digit of numbers that are written positionally; all
      numbers are if there is none. -/
  positional : Option (Int × Int)
  deriving DecidableEq

/-- The decimal `digits * 10 ^ place` rounds to the positive number `mantissa * 2 ^ exponent`: it lies between
    the midpoints to the neighbouring numbers, or on one of them where the mantissa is even. -/
def roundsTo (mantissa : Nat) (exponent : Int) (digits : Nat) (place : Int) : Bool :=
  let lower := if mantissa = minMantissa ∧ minExponent < exponent then 4 * mantissa - 1 else 4 * mantissa - 2
  let upper := 4 * mantissa + 2
  let quarter := Nat.pow 2 exponent.toNat * Nat.pow 10 (-place).toNat
  let value := 4 * digits * Nat.pow 10 place.toNat * Nat.pow 2 (-exponent).toNat
  if mantissa % 2 = 0 then lower * quarter ≤ value && value ≤ upper * quarter
  else lower * quarter < value && value < upper * quarter

/-- The upper one of two neighbours on a grid is nearer to `num / den`, or is taken of two equally near. -/
def takesUpper (tiesToEven : Bool) (num den : Nat) : Bool :=
  let twice := 2 * (num % den)
  den < twice || (twice = den && !(tiesToEven && num / den % 2 = 0))

/-- The digits on a grid that round to a positive number, if any do. -/
def onGrid? (tiesToEven : Bool) (mantissa : Nat) (exponent place : Int) : Option Nat :=
  let num := mantissa * Nat.pow 2 exponent.toNat * Nat.pow 10 (-place).toNat
  let den := Nat.pow 2 (-exponent).toNat * Nat.pow 10 place.toNat
  let below := num / den
  match roundsTo mantissa exponent below place, roundsTo mantissa exponent (below + 1) place with
  | true, true => some (if takesUpper tiesToEven num den then below + 1 else below)
  | true, false => some below
  | false, true => some (below + 1)
  | false, false => none

/-- The digits and the place of the shortest decimal on the grids from a place down. -/
def shortestFrom (tiesToEven : Bool) (mantissa : Nat) (exponent : Int) :
    (grids : Nat) → (place : Int) → Nat × Int
  | 0, place => (0, place)
  | grids + 1, place =>
    match onGrid? tiesToEven mantissa exponent place with
    | some digits => (digits, place)
    | none => shortestFrom tiesToEven mantissa exponent grids (place - 1)

/-- The shortest decimal that rounds to a positive number. -/
def shortest (tiesToEven : Bool) (mantissa : Nat) (exponent : Int) : Nat × Int :=
  shortestFrom tiesToEven mantissa exponent 660 310

/-- Digits with the point at a place: `digits * 10 ^ place`. -/
def positional (digits : Nat) (place : Int) : List Char :=
  let ds := Nat.toDigits 10 digits
  if 0 ≤ place then ds ++ List.replicate place.toNat '0' ++ ['.', '0']
  else
    let fraction := (-place).toNat
    let ds := ds.leftpad (fraction + 1) '0'
    ds.take (ds.length - fraction) ++ '.' :: ds.drop (ds.length - fraction)

/-- The power of ten at the first digit of `digits * 10 ^ place`. -/
def leadingPower (digits : Nat) (place : Int) : Int := place + (Nat.toDigits 10 digits).length - 1

/-- Digits with the point after the first one, and the power of ten there. -/
def scientific (digits : Nat) (place : Int) : List Char :=
  let power := leadingPower digits place
  let fraction := (Nat.toDigits 10 digits).drop 1
  (Nat.toDigits 10 digits).take 1 ++ (if fraction.isEmpty then [] else '.' :: fraction) ++
    'e' :: (if power < 0 then '-' else '+') :: Nat.toDigits 10 power.natAbs

/-- A style writes `digits * 10 ^ place` positionally. -/
def Style.isPositional (style : Style) (digits : Nat) (place : Int) : Bool :=
  match style.positional with
  | none => true
  | some (least, greatest) => least ≤ leadingPower digits place && leadingPower digits place ≤ greatest

/-- The text of a number in a style. -/
def render (style : Style) : Binary64 → String
  | nan => "NaN"
  | infinite negative => if negative then "-inf" else "inf"
  | finite negative mantissa exponent =>
    let (digits, place) := if mantissa = 0 then (0, 0) else shortest style.tiesToEven mantissa exponent
    let text := if style.isPositional digits place then positional digits place else scientific digits place
    (if negative then "-" else "") ++ String.ofList text

end GpuListing.Binary64
