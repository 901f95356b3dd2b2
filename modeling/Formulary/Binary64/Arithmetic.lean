import Formulary.Binary64.Datum

/-!
# Exact operations on doubles

The remainder, the sign, the minimum and the maximum of doubles are exact, and
are computed on their magnitudes.

Main results:

- Definition `Datum.rank`: the place of a double in the order of the numbers.
- Definitions `least` and `greatest`: the choice between two doubles by rank.
-/

namespace Formulary.Binary64

/-! ## Remainder -/

/-- The remainder of a division whose quotient is cut to a whole number; it has
the sign of the dividend. -/
def remainder (x y : Float) : Float :=
  match decode x, decode y with
  | .finite negative dividend, .finite _ divisor =>
    if divisor = 0 then encode .notANumber
    else encode (.finite negative (dividend % divisor))
  | .finite _ _, .infinite _ => x
  | _, _ => encode .notANumber

/-! ## Order -/

/-- The place of a datum in the order of the numbers, with both zeros in one
place and the infinities at the ends. -/
def Datum.rank : Datum → Int
  | .notANumber => 0
  | .infinite negative => if negative then -(Nat.pow 2 2098 : Int) else Nat.pow 2 2098
  | .finite negative units => if negative then -(units : Int) else units

/-- The sign of a number as one, minus one or zero. -/
def sign (x : Float) : Float :=
  match decode x with
  | .notANumber => x
  | datum => if 0 < datum.rank then 1 else if datum.rank < 0 then -1 else 0

/-- One of two doubles: the first that is not a number, else the one that
`choosesFirst` picks by rank. -/
def select (choosesFirst : Int → Int → Bool) (x y : Float) : Float :=
  match decode x, decode y with
  | .notANumber, _ => x
  | _, .notANumber => y
  | a, b => if choosesFirst a.rank b.rank then x else y

/-- The lesser of two doubles, or the first that is not a number. -/
def least (x y : Float) : Float :=
  select (fun a b => a ≤ b) x y

/-- The greater of two doubles, or the first that is not a number. -/
def greatest (x y : Float) : Float :=
  select (fun a b => b ≤ a) x y

/-- The positive infinity. -/
def infinity : Float := encode (.infinite false)

/-- The negative infinity. -/
def negativeInfinity : Float := encode (.infinite true)

end Formulary.Binary64
