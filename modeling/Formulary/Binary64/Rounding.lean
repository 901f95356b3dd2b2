import Formulary.Binary64.Datum

/-!
# Rounding to whole numbers

Floor, ceiling and truncation are computed exactly on the magnitude of a
double.  Rounding to the nearest whole number adds a half first, and that sum
is a double again.

Main results:

- Theorems `wholePart_down` and `wholePart_up`: the whole part of a magnitude
  differs from it by less than one.
-/

namespace Formulary.Binary64

/-- The whole part of a magnitude, one more if `up` is set and there is
anything behind the point. -/
def wholePart (units : Nat) (up : Bool) : Nat :=
  units / one + if up && units % one != 0 then 1 else 0

/-- The greatest whole number that is not above a double. -/
def floor (x : Float) : Float :=
  match decode x with
  | .finite negative units => encode (.finite negative (wholePart units negative * one))
  | _ => x

/-- The least whole number that is not below a double. -/
def ceil (x : Float) : Float :=
  match decode x with
  | .finite negative units => encode (.finite negative (wholePart units (!negative) * one))
  | _ => x

/-- The sum with a half, rounded down. -/
def round (x : Float) : Float :=
  floor (x + 0.5)

/-- Why a double has no whole part. -/
inductive TruncationError
  | notANumber
  | infinite
deriving DecidableEq, Repr

/-- The whole number left of a double when the digits behind the point are
dropped. -/
def truncate (x : Float) : Except TruncationError Int :=
  match decode x with
  | .notANumber => .error .notANumber
  | .infinite _ => .error .infinite
  | .finite negative units =>
    .ok (if negative then -((units / one : Nat) : Int) else (units / one : Nat))

/-- The whole part is below the magnitude by less than one. -/
theorem wholePart_down (units : Nat) :
    wholePart units false * one ≤ units ∧ units < (wholePart units false + 1) * one := by
  simp only [wholePart, Bool.false_and, Bool.false_eq_true, if_false, Nat.add_zero]
  constructor
  · exact Nat.div_mul_le_self units one
  · rw [Nat.mul_comm]
    exact Nat.lt_mul_div_succ units one_pos

/-- The whole part rounded up is above the magnitude by less than one. -/
theorem wholePart_up (units : Nat) :
    units ≤ wholePart units true * one ∧ wholePart units true * one < units + one := by
  have parts := Nat.div_add_mod units one
  have below := Nat.mod_lt units one_pos
  simp only [wholePart, Bool.true_and, bne_iff_ne]
  rw [Nat.mul_comm] at parts
  split
  · next h => rw [Nat.add_mul, Nat.one_mul]; omega
  · next h =>
    have exact : units % one = 0 := by simpa using h
    rw [Nat.add_zero]; omega

end Formulary.Binary64
