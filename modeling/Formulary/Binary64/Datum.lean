/-!
# Binary64 data

A double is not a number, an infinity, or a sign with a magnitude.  Finite
magnitudes are whole multiples of the smallest positive double `2 ^ (-1074)`,
so that all exact arithmetic on them is arithmetic on natural numbers.

Main results:

- Definitions `decode` and `encode`: the datum of a double and the double of a
  datum.
- Theorem `magnitudeBits_of_lt`: small magnitudes are their own encoding.
-/

namespace Formulary.Binary64

/-- A double taken apart.  The value of `finite negative units` is
`units / 2 ^ 1074` with the sign given; zero has a sign, too. -/
inductive Datum
  | notANumber
  | infinite (negative : Bool)
  | finite (negative : Bool) (units : Nat)
deriving DecidableEq, Repr

/-- The number of places behind the binary point of the smallest positive
double. -/
def places : Nat := 1074

/-- The number one in units of the smallest positive double. -/
def one : Nat := Nat.pow 2 places

theorem one_pos : 0 < one := by
  have positive : ∀ count, 0 < Nat.pow 2 count := fun _ => Nat.two_pow_pos _
  unfold one
  exact positive places

/-- The number of fractions that can be stored, which is also the place of the
leading bit that is not stored. -/
def fractionEnd : Nat := Nat.pow 2 52

/-- Takes a double apart: a fraction of 52 bits, an exponent of 11 bits and a
sign bit. -/
def decode (x : Float) : Datum :=
  let bits := x.toBits.toNat
  let fraction := bits % fractionEnd
  let exponent := bits / fractionEnd % 2048
  let negative := decide (Nat.pow 2 63 ≤ bits)
  if exponent = 2047 then
    if fraction = 0 then .infinite negative else .notANumber
  else if exponent = 0 then .finite negative fraction
  else .finite negative ((fractionEnd + fraction) * Nat.pow 2 (exponent - 1))

/-- The stored exponent and fraction of a finite magnitude.  The magnitude is
shifted down to 53 bits if it has more. -/
def magnitudeBits (units : Nat) : Nat :=
  let shift := units.log2 - 52
  shift * fractionEnd + units / Nat.pow 2 shift

/-- The double of a datum whose magnitude is one of a double. -/
def encode : Datum → Float
  | .notANumber => Float.ofBits 0x7FF8000000000000
  | .infinite negative =>
    Float.ofBits (UInt64.ofNat ((if negative then Nat.pow 2 63 else 0) + 0x7FF0000000000000))
  | .finite negative units =>
    Float.ofBits (UInt64.ofNat ((if negative then Nat.pow 2 63 else 0) + magnitudeBits units))

/-- Magnitudes of at most 53 bits are their own encoding. -/
theorem magnitudeBits_of_lt {units : Nat} (h : units < Nat.pow 2 53) :
    magnitudeBits units = units := by
  have small : units.log2 - 52 = 0 := by
    by_cases zero : units = 0
    · simp [zero]
    · have := (Nat.log2_lt zero).2 h
      omega
  simp [magnitudeBits, small]

/-- The magnitude in signed units; infinities and numbers that are none have no
such magnitude. -/
def Datum.units? : Datum → Option Int
  | .finite negative units => some (if negative then -(units : Int) else units)
  | _ => none

/-- A double is finite when it is a whole multiple of the smallest one. -/
def isFinite (x : Float) : Bool :=
  (decode x).units?.isSome

end Formulary.Binary64
