/-! # Binary floating-point numbers of 64 bits

A finite number is a sign, a mantissa below 2^53 and an exponent of two from -1074 to 971; the mantissa is at
least 2^52 unless the exponent is the least one. A decimal is taken to the nearest number, a tie to the even
mantissa, and to infinity beyond the largest. All of it is arithmetic on natural numbers. -/

namespace GpuListing

/-- A floating-point number of 64 bits. -/
inductive Binary64 where
  | nan
  | infinite (negative : Bool)
  /-- The number `mantissa * 2 ^ exponent`, negated where the mark is set. -/
  | finite (negative : Bool) (mantissa : Nat) (exponent : Int)
  deriving DecidableEq

namespace Binary64

/-- The least exponent. -/
def minExponent : Int := -1074

/-- The greatest exponent. -/
def maxExponent : Int := 971

/-- The least mantissa of numbers whose exponent is not the least one. -/
def minMantissa : Nat := Nat.pow 2 52

/-- The quotient rounded to the nearest number, a tie to the even one. -/
def divideEven (num den : Nat) : Nat :=
  let quotient := num / den
  let twice := 2 * (num % den)
  if twice < den ∨ (twice = den ∧ quotient % 2 = 0) then quotient else quotient + 1

/-- The exponent at which a positive quotient has a mantissa of 53 bits, or the least exponent. -/
def exponentFor (num den : Nat) : Int :=
  let guess := max minExponent ((num.log2 : Int) - den.log2 - 53)
  if num * Nat.pow 2 (-guess).toNat / (den * Nat.pow 2 guess.toNat) < 2 * minMantissa then guess else guess + 1

/-- Zero with a sign. -/
def zero (negative : Bool) : Binary64 := finite negative 0 minExponent

/-- The number nearest to a quotient by a positive number. -/
def ofQuotient (negative : Bool) (num den : Nat) : Binary64 :=
  if num = 0 then zero negative
  else
    let exponent := exponentFor num den
    let mantissa := divideEven (num * Nat.pow 2 (-exponent).toNat) (den * Nat.pow 2 exponent.toNat)
    let (mantissa, exponent) :=
      if mantissa = 2 * minMantissa then (minMantissa, exponent + 1) else (mantissa, exponent)
    if maxExponent < exponent then infinite negative else finite negative mantissa exponent

/-- The number nearest to `digits * 10 ^ exponent`. Exponents so far out that no digit matters are not
    computed with. -/
def ofDecimal (negative : Bool) (digits : Nat) (exponent : Int) : Binary64 :=
  let length := (Nat.toDigits 10 digits).length
  if digits = 0 ∨ exponent + length < -400 then zero negative
  else if 400 < exponent + length then infinite negative
  else ofQuotient negative (digits * Nat.pow 10 exponent.toNat) (Nat.pow 10 (-exponent).toNat)

end Binary64

end GpuListing
