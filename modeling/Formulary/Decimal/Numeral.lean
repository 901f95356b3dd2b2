/-!
# Decimal numerals

A positive fraction is rounded to a given number of significant decimal digits.
All arithmetic is on natural numbers and exact.

Main results:

- Definition `roundQuotient`: the whole number nearest to a quotient.
- Definition `Numeral.ofFraction`: a fraction with so many significant digits.
-/

namespace Formulary.Decimal

/-! ## Rounding a quotient -/

/-- Where a number halfway between two neighbours goes. -/
inductive Tie
  | toEven
  | awayFromZero
deriving DecidableEq, Repr

/-- The quotient rounded to a nearest whole number. -/
def roundQuotient (tie : Tie) (dividend divisor : Nat) : Nat :=
  let whole := dividend / divisor
  let rest := dividend % divisor
  if 2 * rest < divisor then whole
  else if 2 * rest = divisor then
    match tie with
    | .toEven => whole + whole % 2
    | .awayFromZero => whole + 1
  else whole + 1

/-! ## Significant digits -/

/-- The decimal digits of a number. -/
def digitsOf (n : Nat) : List Char :=
  Nat.toDigits 10 n

/-- The number `d.ddd × 10 ^ exponent` with its digits in order. -/
structure Numeral where
  digits : List Char
  exponent : Int
deriving DecidableEq, Repr

/-- The exponent of the leading decimal digit of a positive fraction. -/
def leadingExponent (numerator denominator : Nat) : Int :=
  if denominator ≤ numerator then
    ((digitsOf (numerator / denominator)).length : Int) - 1
  else -((digitsOf ((denominator - 1) / numerator)).length : Int)

/-- A fraction scaled by a power of ten and rounded to a whole number. -/
def roundScaled (tie : Tie) (numerator denominator : Nat) (scale : Int) : Nat :=
  roundQuotient tie (numerator * Nat.pow 10 scale.toNat) (denominator * Nat.pow 10 (-scale).toNat)

/-- A fraction with `precision` significant digits.  Rounding may carry into one
digit more, which is then the next power of ten. -/
def Numeral.ofFraction (tie : Tie) (precision numerator denominator : Nat) : Numeral :=
  if numerator = 0 then ⟨List.replicate precision '0', 0⟩
  else
    let exponent := leadingExponent numerator denominator
    let rounded := roundScaled tie numerator denominator (precision - 1 - exponent)
    if rounded < Nat.pow 10 precision then ⟨digitsOf rounded, exponent⟩
    else ⟨digitsOf (rounded / 10), exponent + 1⟩

end Formulary.Decimal
