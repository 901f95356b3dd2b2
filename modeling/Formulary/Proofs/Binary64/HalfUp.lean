import Formulary.Kernel
import Formulary.Proofs.Binary64.WholeParts

/-!
# Rounding half up

A double is rounded by adding a half and rounding the sum down.  The sum is itself rounded to
a double, and so the result is the nearest whole number, and the greater one for a number
halfway between two, but for the double next below a half and the odd numbers beyond `2 ^ 52`,
which are rounded up by one too much.

Main results:

- Definition `IsNearestUp`: rounding half up of exact numbers.
- Theorem `isNearestUp_iff`: rounding half up is rounding the sum with a half down.
- Theorem `number?_round`: what a finite double is rounded to.
- Theorem `Kernel.unary_round_nearest`: the rows that rounding makes.
-/

namespace Formulary

namespace Binary64

/-! ## Numbers -/

/-- The number that a finite double stands for. -/
def number? (x : Float) : Option Rat :=
  (decode x).units?.map fun units : Int => (units : Rat) / (one : Rat)

theorem one_cast_ne_zero : (one : Rat) ≠ 0 := by
  exact_mod_cast one_pos.ne'

/-- Every finite double stands for a number. -/
theorem number?_of_isFinite {x : Float} (finite : isFinite x = true) :
    ∃ number, number? x = some number := by
  obtain ⟨exact, units⟩ := Option.isSome_iff_exists.1 finite
  exact ⟨_, congrArg _ units⟩

theorem number?_of_decode {x : Float} {negative : Bool} {units : Nat}
    (finite : decode x = .finite negative units) :
    number? x = some ((signed negative units : Rat) / (one : Rat)) := by
  rw [number?, finite]
  rfl

theorem number?_whole {x : Float} {whole : Nat} (finite : decode x = .finite false (whole * one)) :
    number? x = some (whole : Rat) := by
  rw [number?_of_decode finite, signed_mul, Int.cast_mul, Int.cast_natCast,
    mul_div_cancel_right₀ _ one_cast_ne_zero]
  rfl

/-- A whole number nearest to a number, and the greater of two that are as near. -/
structure IsNearestUp (number : Rat) (whole : Int) : Prop where
  nearest (other : Int) : |number - whole| ≤ |number - other|
  greater (other : Int) : |number - whole| = |number - other| → other ≤ whole

/-- The nearest whole number is less than a half below a number and at most a half above it. -/
theorem isNearestUp_iff_bounds {number : Rat} {whole : Int} :
    IsNearestUp number whole ↔ -(1 / 2) ≤ number - whole ∧ number - whole < 1 / 2 := by
  constructor
  · intro up
    have next := up.nearest (whole + 1)
    have tie := mt (up.greater (whole + 1)) (by omega)
    have before := up.nearest (whole - 1)
    push_cast at next tie before
    rw [← sq_le_sq] at next before
    rw [← sq_eq_sq_iff_abs_eq_abs] at tie
    have strict := lt_of_le_of_ne next tie
    -- The squares of both distances differ by a term that is linear in the number.
    constructor
    · linarith
    · linarith
  · rintro ⟨low, high⟩
    have near : |number - whole| ≤ 1 / 2 := abs_le.2 ⟨low, high.le⟩
    have apart : ∀ other : Int, whole < other → 1 / 2 < |number - other| := by
      intro other above
      have step : (whole : Rat) + 1 ≤ other := by exact_mod_cast above
      have far : 1 / 2 < -(number - other) := by linarith
      exact lt_of_lt_of_le far (neg_le_abs _)
    constructor
    · intro other
      rcases lt_trichotomy other whole with below | rfl | above
      · have step : (other : Rat) + 1 ≤ whole := by exact_mod_cast below
        have far : 1 / 2 ≤ number - other := by linarith
        exact near.trans (far.trans (le_abs_self _))
      · exact le_refl _
      · exact near.trans (apart other above).le
    · intro other same
      by_contra above
      have far := apart other (not_le.1 above)
      linarith

/-- Rounding half up is rounding the sum with a half down. -/
theorem isNearestUp_iff {number : Rat} {whole : Int} :
    IsNearestUp number whole ↔ whole = ⌊number + 1 / 2⌋ := by
  rw [isNearestUp_iff_bounds, eq_comm, Int.floor_eq_iff]
  constructor
  · rintro ⟨low, high⟩
    exact ⟨by linarith, by linarith⟩
  · rintro ⟨low, high⟩
    exact ⟨by linarith, by linarith⟩

/-- The doubles whose sum with a half is rounded to the next whole number: the one next below a
half, and the odd numbers beyond `2 ^ 52`. -/
def RoundsPast (number : Rat) : Prop :=
  number = 1 / 2 - 1 / 2 ^ 54 ∨ ∃ whole : Int, Odd whole ∧ 2 ^ 52 < |whole| ∧ number = whole

/-- The number of the double next below a half. -/
theorem sub_mul_one : (1 / 2 - 1 / 2 ^ 54 : Rat) * (one : Rat) = (half - gap : Nat) := by
  have ending : (fractionEnd : Rat) = 4503599627370496 := by
    exact_mod_cast (rfl : fractionEnd = 4503599627370496)
  rw [Nat.cast_sub gap_lt_half.le, one_eq, half_eq]
  push_cast
  rw [ending]
  ring

theorem roundsPast_iff {exact : Int} :
    RoundsPast ((exact : Rat) / (one : Rat)) ↔ RoundsPastUnits exact := by
  have large : ∀ whole : Int, 2 ^ 52 < |whole| ↔ fractionEnd < whole.natAbs := by
    intro whole
    have ending : fractionEnd = 4503599627370496 := rfl
    rw [Int.abs_eq_natAbs, ending]
    omega
  rw [RoundsPast, RoundsPastUnits]
  refine or_congr ?_ (exists_congr fun whole => and_congr Int.odd_iff (and_congr (large whole) ?_))
  · rw [div_eq_iff one_cast_ne_zero, sub_mul_one]
    exact_mod_cast Iff.rfl
  · rw [div_eq_iff one_cast_ne_zero]
    exact_mod_cast Iff.rfl

/-- The exact sum with a half, rounded down. -/
theorem floor_add_half (exact : Int) :
    ⌊(exact : Rat) / (one : Rat) + 1 / 2⌋ = (exact + half) / one := by
  have sum : (exact : Rat) / (one : Rat) + 1 / 2 = ((exact + half : Int) : Rat) / (one : Nat) := by
    rw [div_add' _ _ _ one_cast_ne_zero]
    push_cast
    rw [one_eq]
    push_cast
    ring
  rw [sum, Rat.floor_intCast_div_natCast]

/-- A finite double is rounded to a whole number: the nearest one, or one more for the doubles
that are rounded past it. -/
theorem number?_round {x : Float} {number : Rat} (finite : number? x = some number) :
    ∃ whole : Int, number? (round x) = some (whole : Rat) ∧
      (¬RoundsPast number → IsNearestUp number whole) ∧
      (RoundsPast number → IsNearestUp number (whole - 1)) := by
  obtain ⟨exact, units, rfl⟩ := Option.map_eq_some_iff.1 finite
  obtain ⟨whole, stored, nearest, past⟩ := exists_whole_round units
  refine ⟨whole, ?_, ?_, ?_⟩
  · rw [number?, stored, Option.map_some, Int.cast_mul, Int.cast_natCast,
      mul_div_cancel_right₀ _ one_cast_ne_zero]
  · intro other
    rw [isNearestUp_iff, floor_add_half]
    exact nearest (mt roundsPast_iff.2 other)
  · intro other
    rw [isNearestUp_iff, floor_add_half, past (roundsPast_iff.1 other)]
    exact Int.add_sub_cancel _ _

end Binary64

namespace Kernel

open Binary64

/-- Rounding a row gives a row of whole numbers in the places of the finite doubles.  Each is the
nearest whole number, and the greater of two, except that the double next below a half and the
odd numbers beyond `2 ^ 52` are rounded to one more. -/
theorem unary_round_nearest (row : List Float) :
    ∃ stored, unary (.unary .round) row = .ok stored ∧
      List.Forall₂ (fun x rounded => isFinite x = true →
        ∃ (number : Rat) (whole : Int), number? x = some number ∧ number? rounded = some ↑whole ∧
          (¬RoundsPast number → IsNearestUp number whole) ∧
          (RoundsPast number → IsNearestUp number (whole - 1))) row stored := by
  refine ⟨row.map Binary64.round, rfl, ?_⟩
  rw [List.forall₂_map_right_iff, List.forall₂_same]
  intro x _ finite
  obtain ⟨number, found⟩ := number?_of_isFinite finite
  obtain ⟨whole, rounded⟩ := number?_round found
  exact ⟨number, whole, found, rounded⟩

theorem unary_round_nearest_tie :
    isFinite 2.5 = true ∧ number? 2.5 = some (5 / 2) ∧ ¬RoundsPast (5 / 2) ∧
      ∃ rounded, unary (.unary .round) [(2.5 : Float)] = .ok [rounded] ∧
        number? rounded = some 3 := by
  have finite : isFinite 2.5 = true := by decide +kernel
  have value : number? 2.5 = some (5 / 2) := by
    have finite : decode 2.5 = .finite false (5 * half) := by decide +kernel
    have positive : (half : Rat) ≠ 0 := by exact_mod_cast half_pos.ne'
    have exact : signed false (5 * half) = 5 * half := Int.natCast_mul 5 half
    rw [number?_of_decode finite, one_eq, exact]
    push_cast
    rw [mul_div_mul_right _ _ positive]
  have other : ¬RoundsPast (5 / 2) := by
    rintro (below | ⟨whole, -, -, same⟩)
    · norm_num at below
    · have halves : (5 : Rat) = 2 * whole := by linarith
      have parity : (5 : Int) = 2 * whole := by exact_mod_cast halves
      omega
  refine ⟨finite, value, other, ?_⟩
  obtain ⟨stored, same, all⟩ := unary_round_nearest [2.5]
  obtain ⟨rounded, rest, first, end_of_row, rfl⟩ := List.forall₂_cons_left_iff.1 all
  obtain rfl := List.forall₂_nil_left_iff.1 end_of_row
  obtain ⟨number, whole, found, stored, nearest, -⟩ := first finite
  obtain rfl : 5 / 2 = number := Option.some.inj (value.symm.trans found)
  refine ⟨rounded, same, ?_⟩
  rw [stored, isNearestUp_iff.1 (nearest other)]
  norm_num

/-- The double next below a half is not rounded to zero, and an odd number beyond `2 ^ 52` does
not stay what it is. -/
theorem unary_round_past :
    unary (.unary .round) [0.49999999999999994, 4503599627370497] =
        .ok [(1 : Float), 4503599627370498] ∧
      (number? 0.49999999999999994 = some (1 / 2 - 1 / 2 ^ 54) ∧ number? 1 = some 1 ∧
        IsNearestUp (1 / 2 - 1 / 2 ^ 54) 0) ∧
      number? 4503599627370497 = some 4503599627370497 ∧
        number? 4503599627370498 = some 4503599627370498 ∧
        IsNearestUp 4503599627370497 4503599627370497 := by
  have rounded : [Binary64.round 0.49999999999999994, Binary64.round 4503599627370497] =
      [1, 4503599627370498] := by decide +kernel
  refine ⟨congrArg Except.ok rounded, ⟨?_, ?_, ?_⟩, ?_, ?_, ?_⟩
  · have finite : decode 0.49999999999999994 = .finite false (half - gap) := by decide +kernel
    rw [number?_of_decode finite, Option.some_inj, div_eq_iff one_cast_ne_zero, sub_mul_one]
    rfl
  · have finite : decode 1 = .finite false (1 * one) := by decide +kernel
    exact_mod_cast number?_whole finite
  · rw [isNearestUp_iff]
    norm_num
  · have finite : decode 4503599627370497 = .finite false (4503599627370497 * one) := by
      decide +kernel
    exact_mod_cast number?_whole finite
  · have finite : decode 4503599627370498 = .finite false (4503599627370498 * one) := by
      decide +kernel
    exact_mod_cast number?_whole finite
  · rw [isNearestUp_iff]
    norm_num

end Kernel

end Formulary
