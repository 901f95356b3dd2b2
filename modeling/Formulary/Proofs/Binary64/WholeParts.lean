import Formulary.Proofs.Binary64.Halves

/-!
# Whole parts of sums with a half

Rounding adds a half to a double and takes the whole part of the sum.  On units both are
arithmetic on integers: the exact sum is rounded to a double, and the quotient by one is
rounded down.  That quotient is the one of the exact sum, except for the double next below a
half and for odd numbers beyond `2 ^ 52`, for which it is one more.

Main results:

- Theorems `nearestSigned_add_half` and `nearestSigned_neg_add_half`: the whole part of the
  rounded sum of a double and a half.
- Theorem `decode_floor`: the whole part of a finite double.
- Theorem `decode_add_half`: the sum of a finite double and a half.
- Theorem `exists_whole_round`: what a finite double is rounded to.
-/

namespace Formulary.Binary64

open Axis (nearestDouble)

/-! ## Signed sums -/

/-- The double nearest to an exact sum, in signed units. -/
def nearestSigned (exact : Int) : Int :=
  signed (decide (exact < 0)) (nearestDouble exact.natAbs)

theorem nearestSigned_natCast (units : Nat) : nearestSigned units = nearestDouble units := by
  rw [nearestSigned, decide_eq_false (Int.not_lt.2 (Int.natCast_nonneg units))]
  rfl

theorem nearestSigned_neg {units : Nat} (positive : 0 < units) :
    nearestSigned (-units) = -nearestDouble units := by
  rw [nearestSigned, decide_eq_true (Int.neg_neg_of_pos (Int.natCast_pos.2 positive)),
    Int.natAbs_neg]
  rfl

/-- The doubles whose sum with a half is rounded up to a whole number: the one next below a half,
and the odd numbers beyond `2 ^ 52`. -/
def RoundsPastUnits (exact : Int) : Prop :=
  exact = (half - gap : Nat) ∨
    ∃ whole : Int, whole % 2 = 1 ∧ fractionEnd < whole.natAbs ∧ exact = whole * one

theorem roundsPastUnits_whole {whole : Int} (large : fractionEnd ≤ whole.natAbs) :
    RoundsPastUnits (whole * one) ↔ whole % 2 = 1 := by
  have positive : (0 : Int) < one := Int.natCast_pos.2 one_pos
  constructor
  · rintro (below | ⟨other, odd, -, same⟩)
    · have size : whole.natAbs * one = half - gap := by
        rw [← Int.natAbs_natCast (half - gap), ← below, Int.natAbs_mul, Int.natAbs_natCast]
      have reached : 1 * one ≤ whole.natAbs * one :=
        Nat.mul_le_mul_right _ (Nat.le_trans fractionEnd_pos large)
      have less := half_lt_one
      omega
    · rwa [Int.eq_of_mul_eq_mul_right (Int.ne_of_gt positive) same]
  · intro odd
    have ending : fractionEnd = 4503599627370496 := rfl
    exact .inr ⟨whole, odd, by omega, rfl⟩

theorem not_roundsPastUnits {exact : Int} (small : exact.natAbs ≤ fractionEnd * one)
    (other : exact ≠ (half - gap : Nat)) : ¬RoundsPastUnits exact := by
  rintro (below | ⟨whole, -, large, same⟩)
  · exact other below
  · rw [same, Int.natAbs_mul, Int.natAbs_natCast] at small
    exact Nat.not_lt_of_ge (Nat.le_of_mul_le_mul_right small one_pos) large

section

variable {units : Nat}

/-- The sum of a double and a half is rounded to one with the same whole part, or with the next. -/
theorem nearestSigned_add_half (stored : IsMagnitude units) :
    (RoundsPastUnits units →
      nearestSigned (units + half) / one = ((units : Int) + half) / one + 1) ∧
    (¬RoundsPastUnits units →
      nearestSigned (units + half) / one = ((units : Int) + half) / one) := by
  have less := half_lt_one
  rw [← Int.natCast_add, nearestSigned_natCast, ← Int.natCast_ediv, ← Int.natCast_ediv]
  by_cases large : fractionEnd * one ≤ units
  · obtain ⟨whole, multiple, reached, stored⟩ := exists_whole stored large
    have past : RoundsPastUnits units ↔ whole % 2 = 1 := by
      have size : fractionEnd ≤ (whole : Int).natAbs := reached
      rw [multiple, Int.natCast_mul, roundsPastUnits_whole size]
      omega
    have exact : (units + half) / one = whole := by
      rw [multiple, Nat.mul_comm, Nat.mul_add_div one_pos, Nat.div_eq_of_lt less, Nat.add_zero]
    have rounded : nearestDouble (units + half) / one = whole + whole % 2 := by
      rw [multiple, nearestDouble_add_half reached stored, Nat.mul_div_cancel _ one_pos]
    rw [exact, rounded, past]
    omega
  · have small := Nat.lt_of_not_le large
    by_cases below : units = half - gap
    · have past : RoundsPastUnits units := .inl (congrArg Nat.cast below)
      have exact : (units + half) / one = 0 := by
        refine Nat.div_eq_of_lt ?_
        have twice := one_eq
        have positive := gap_pos
        omega
      have rounded : nearestDouble (units + half) / one = 1 := by
        rw [below, nearestDouble_one, Nat.div_self one_pos]
      rw [exact, rounded]
      exact ⟨fun _ => rfl, fun other => absurd past other⟩
    · have other : ¬RoundsPastUnits units :=
        not_roundsPastUnits (Nat.le_of_lt small) fun same => below (Int.ofNat.inj same)
      exact ⟨fun past => absurd past other,
        fun _ => congrArg Nat.cast (nearestDouble_add_half_div stored small below)⟩

/-- The same for a double with a minus sign. -/
theorem nearestSigned_neg_add_half (stored : IsMagnitude units) :
    (RoundsPastUnits (-units) →
      nearestSigned (-units + half) / one = (-(units : Int) + half) / one + 1) ∧
    (¬RoundsPastUnits (-units) →
      nearestSigned (-units + half) / one = (-(units : Int) + half) / one) := by
  have less := half_lt_one
  have twice := one_eq
  by_cases large : fractionEnd * one < units
  · obtain ⟨whole, multiple, -, stored⟩ := exists_whole stored (Nat.le_of_lt large)
    have reached : fractionEnd < whole := by
      rw [multiple] at large
      exact Nat.lt_of_mul_lt_mul_right large
    have scaled : (units : Int) = whole * one := by
      rw [multiple, Int.natCast_mul]
    have past : RoundsPastUnits (-units) ↔ whole % 2 = 1 := by
      have size : fractionEnd ≤ (-(whole : Int)).natAbs := by omega
      rw [scaled, ← Int.neg_mul, roundsPastUnits_whole size]
      omega
    have exact : (-(units : Int) + half) / one = -whole := by
      rw [scaled, ← Int.neg_mul, Int.add_comm,
        Int.add_mul_ediv_right _ _ (Int.ne_of_gt (Int.natCast_pos.2 one_pos)),
        Int.ediv_eq_zero_of_lt (Int.natCast_nonneg _) (Int.ofNat_lt.2 less), Int.zero_add]
    have rounded : nearestSigned (-units + half) / one = -((whole - whole % 2 : Nat) : Int) := by
      have positive : 0 < whole * one - half := by
        have some : 0 < whole := Nat.lt_trans fractionEnd_pos reached
        have ones := Nat.mul_le_mul_right one some
        omega
      have below : -(units : Int) + half = -((whole * one - half : Nat) : Int) := by omega
      rw [below, nearestSigned_neg positive, nearestDouble_sub_half reached stored,
        Int.natCast_mul, ← Int.neg_mul]
      exact Int.mul_ediv_cancel _ (Int.ne_of_gt (Int.natCast_pos.2 one_pos))
    rw [exact, rounded, past]
    omega
  · have other : ¬RoundsPastUnits (-units) := by
      have less := gap_lt_half
      exact not_roundsPastUnits (by omega) (by omega)
    refine ⟨fun past => absurd past other, fun _ => ?_⟩
    -- The sum is not negative and at most a half, or it is exact.
    by_cases first : units ≤ half
    · have bound : nearestDouble (half - units) ≤ half := by
        have whole : IsMagnitude (1 * half) := isMagnitude_halves (by decide)
        rw [Nat.one_mul] at whole
        exact (nearest_of_ge whole (Nat.sub_le _ _)).1
      have above : -(units : Int) + half = (half - units : Nat) := by omega
      rw [above, nearestSigned_natCast, ← Int.natCast_ediv, ← Int.natCast_ediv,
        Nat.div_eq_of_lt (Nat.lt_of_le_of_lt bound less),
        Nat.div_eq_of_lt (Nat.lt_of_le_of_lt (Nat.sub_le _ _) less)]
    · have positive : 0 < units - half := by omega
      have below : -(units : Int) + half = -((units - half : Nat) : Int) := by omega
      rw [below, nearestSigned_neg positive, nearestDouble_of_isMagnitude
        (isMagnitude_sub_half stored (Nat.le_of_not_lt large))]

end

/-! ## Whole parts -/

/-- Whole numbers of at most 53 binary digits are not beyond the doubles. -/
theorem whole_lt_infinite : 2 * fractionEnd * one < magnitude 2047 0 := by
  have least : ∀ power, magnitude (power + 2) 0 = 2 * fractionEnd * Nat.pow 2 power := by
    intro power
    have double : Nat.pow 2 (power + 1) = 2 * Nat.pow 2 power := Nat.pow_succ'
    rw [magnitude_succ, Nat.add_zero, double, Nat.mul_left_comm, Nat.mul_assoc]
  unfold one
  rw [← least places]
  exact (magnitude_lt_infinite fractionEnd_pos).2 (by decide)

/-- The whole part of a double is a double. -/
theorem isMagnitude_wholePart {units : Nat} (stored : IsMagnitude units)
    (finite : units < magnitude 2047 0) (up : Bool) :
    IsMagnitude (wholePart units up * one) ∧ wholePart units up * one < magnitude 2047 0 := by
  by_cases large : fractionEnd * one ≤ units
  · have whole : one ∣ units :=
      Nat.dvd_trans (one_dvd_spacing large) (isMagnitude_iff_dvd.1 stored)
    have same : wholePart units up * one = units := by
      rw [wholePart, Nat.mod_eq_zero_of_dvd whole, bne_self_eq_false, Bool.and_false,
        if_neg Bool.false_ne_true, Nat.add_zero, Nat.div_mul_cancel whole]
    rw [same]
    exact ⟨stored, finite⟩
  · have few : wholePart units up ≤ 2 * fractionEnd := by
      have below := (Nat.div_lt_iff_lt_mul one_pos).2 (Nat.lt_of_not_le large)
      have some := fractionEnd_pos
      rw [wholePart]
      split <;> omega
    exact ⟨isMagnitude_whole few,
      Nat.lt_of_le_of_lt (Nat.mul_le_mul_right _ few) whole_lt_infinite⟩

/-- The whole part of a finite double, as a double. -/
theorem decode_floor {x : Float} {negative : Bool} {units : Nat}
    (finite : decode x = .finite negative units) :
    decode (floor x) = .finite negative (wholePart units negative * one) := by
  obtain ⟨stored, bound⟩ := isMagnitude_of_decode finite
  obtain ⟨stored', bound'⟩ := isMagnitude_wholePart stored bound negative
  rw [floor, finite]
  exact decode_encode negative stored' bound'

/-- With its sign, the whole part is the quotient rounded down. -/
theorem signed_wholePart (negative : Bool) (units : Nat) :
    signed negative (wholePart units negative) = signed negative units / one := by
  cases negative with
  | false => exact Int.natCast_ediv units one
  | true =>
    have positive : (0 : Int) < one := Int.natCast_pos.2 one_pos
    obtain ⟨above, near⟩ := wholePart_up units
    generalize wholePart units true = whole at above near
    have low : -(whole : Int) * one ≤ -units := by
      rw [Int.neg_mul, ← Int.natCast_mul]
      omega
    have high : -(units : Int) < (-(whole : Int) + 1) * one := by
      rw [Int.add_mul, Int.one_mul, Int.neg_mul, ← Int.natCast_mul]
      omega
    exact Int.le_antisymm ((Int.le_ediv_iff_mul_le positive).2 low)
      (Int.lt_add_one_iff.1 ((Int.ediv_lt_iff_lt_mul positive).2 high))

theorem signed_mul (negative : Bool) (units scale : Nat) :
    signed negative (units * scale) = signed negative units * scale := by
  cases negative with
  | false => exact Int.natCast_mul units scale
  | true => exact (congrArg Neg.neg (Int.natCast_mul units scale)).trans (Int.neg_mul _ _).symm

/-! ## The sum with a half -/

theorem decode_of_units? {x : Float} {exact : Int} (finite : (decode x).units? = some exact) :
    ∃ negative units, decode x = .finite negative units ∧ signed negative units = exact := by
  cases datum : decode x with
  | notANumber => rw [datum] at finite; cases finite
  | infinite negative => rw [datum] at finite; cases finite
  | finite negative units =>
    rw [datum] at finite
    exact ⟨negative, units, rfl, Option.some.inj finite⟩

/-- A half more than a magnitude of a finite double is rounded to one. -/
theorem nearestDouble_add_half_lt {units : Nat} (stored : IsMagnitude units)
    (finite : units < magnitude 2047 0) : nearestDouble (units + half) < magnitude 2047 0 := by
  by_cases large : fractionEnd * one ≤ units
  · obtain ⟨whole, multiple, reached, stored⟩ := exists_whole stored large
    rw [multiple, nearestDouble_add_half reached stored]
    rcases Nat.mod_two_eq_zero_or_one whole with even | odd
    · rw [even, Nat.add_zero, ← multiple]
      exact finite
    · have unit : spacing whole = 1 := by
        rcases spacing_eq_one_or_even whole with unit | ⟨-, even⟩
        · exact unit
        · have parity := Nat.mod_eq_zero_of_dvd (Nat.dvd_trans even (isMagnitude_iff_dvd.1 stored))
          omega
      have few := lt_mul_spacing whole
      rw [unit, Nat.mul_one] at few
      rw [odd]
      exact Nat.lt_of_le_of_lt (Nat.mul_le_mul_right _ few) whole_lt_infinite
  · have below : units + half ≤ 2 * fractionEnd * one := by
      have ending : fractionEnd = 4503599627370496 := rfl
      have less := half_lt_one
      rw [ending] at large ⊢
      omega
    exact Nat.lt_of_le_of_lt (nearest_of_ge (isMagnitude_whole (Nat.le_refl _)) below).1
      whole_lt_infinite

/-- A finite double and a half have a finite sum. -/
theorem nearestDouble_natAbs_lt {negative : Bool} {units : Nat} (stored : IsMagnitude units)
    (finite : units < magnitude 2047 0) :
    nearestDouble (signed negative units + half).natAbs < magnitude 2047 0 := by
  cases negative with
  | false => exact nearestDouble_add_half_lt stored finite
  | true =>
    by_cases first : units ≤ half
    · have size : (signed true units + half).natAbs ≤ 1 * half := by
        simp only [signed, if_true]
        omega
      have bound := (nearest_of_ge (isMagnitude_halves (by decide)) size).1
      have less : 1 * half < 2 * fractionEnd * one :=
        Nat.mul_lt_mul_of_le_of_lt (by decide) half_lt_one (by decide)
      exact Nat.lt_of_le_of_lt bound (Nat.lt_trans less whole_lt_infinite)
    · have size : (signed true units + half).natAbs ≤ units := by
        simp only [signed, if_true]
        omega
      exact Nat.lt_of_le_of_lt (nearest_of_ge stored size).1 finite

/-- The sum of a finite double with a half is the double nearest to it. -/
theorem decode_add_half {x : Float} {exact : Int} (finite : (decode x).units? = some exact) :
    ∃ negative units, decode (x + 0.5) = .finite negative units ∧
      signed negative units = nearestSigned (exact + half) := by
  obtain ⟨negative, units, datum, rfl⟩ := decode_of_units? finite
  obtain ⟨stored, below⟩ := isMagnitude_of_decode datum
  have positive : signed false half = half := rfl
  have sum := decode_add datum decode_half
  rw [positive, Datum.nearest] at sum
  split at sum
  · next zero =>
    rw [Datum.bounded, if_pos (Nat.lt_of_le_of_lt (Nat.zero_le units) below)] at sum
    refine ⟨_, _, sum, ?_⟩
    rw [signed_zero, zero]
    rfl
  · rw [Datum.bounded, if_pos (nearestDouble_natAbs_lt stored below)] at sum
    exact ⟨_, _, sum, rfl⟩

/-- The units of a rounded double. -/
theorem units?_round {x : Float} {exact : Int} (finite : (decode x).units? = some exact) :
    (decode (round x)).units? = some (nearestSigned (exact + half) / one * one) := by
  obtain ⟨negative, units, sum, same⟩ := decode_add_half finite
  rw [round, decode_floor sum, ← same, ← signed_wholePart, ← signed_mul]
  rfl

/-- A rounded double is a whole number: the exact sum with a half rounded down, or the next one
for the doubles that are rounded past it. -/
theorem exists_whole_round {x : Float} {exact : Int} (finite : (decode x).units? = some exact) :
    ∃ whole : Int, (decode (round x)).units? = some (whole * one) ∧
      (¬RoundsPastUnits exact → whole = (exact + half) / one) ∧
      (RoundsPastUnits exact → whole = (exact + half) / one + 1) := by
  refine ⟨nearestSigned (exact + half) / one, units?_round finite, ?_⟩
  obtain ⟨negative, units, datum, rfl⟩ := decode_of_units? finite
  have stored := (isMagnitude_of_decode datum).1
  cases negative with
  | false => exact (nearestSigned_add_half stored).symm
  | true => exact (nearestSigned_neg_add_half stored).symm

end Formulary.Binary64
