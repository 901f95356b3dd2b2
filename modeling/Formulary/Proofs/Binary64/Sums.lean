import Formulary.Proofs.Binary64.Nearest

/-!
# Sums of doubles

The exact sum of two finite doubles is rounded once.  Digits are shifted out of the
significand one by one, with two bits that say how much is lost; what is left is the rounded
quotient, and so the sum is the double nearest to the exact sum.

Main results:

- Theorem `roundedMantissa_shiftRight`: digits that are shifted out are rounded as in a quotient.
- Theorem `ofUnpacked_round`: a significand with an exponent is rounded to the nearest double.
- Theorem `decode_add`: the sum of finite doubles is the double nearest to their exact sum.
-/

open Float.Model Float.Model.UnpackedFloat

namespace Formulary.Binary64

open Axis (nearestDouble)

/-! ## Digits that are shifted out -/

/-- Shifting keeps the quotient, whether the rest is at least a half, and whether it is neither
nothing nor a half. -/
theorem shiftRight_eq (mantissa count : Nat) :
    (⟨mantissa, false, false⟩ : ExtendedMantissa) >>> count =
      ⟨mantissa / Nat.pow 2 count,
        decide (Nat.pow 2 count ≤ 2 * (mantissa % Nat.pow 2 count)),
        decide (2 * (mantissa % Nat.pow 2 count) ≠ 0 ∧
          2 * (mantissa % Nat.pow 2 count) ≠ Nat.pow 2 count)⟩ := by
  -- By induction on the number of digits: the next digit tells the rest from a half.
  induction count with
  | zero => simp [HShiftRight.hShiftRight, Nat.repeat, Nat.mod_one]
  | succ count ih =>
    have step : (⟨mantissa, false, false⟩ : ExtendedMantissa) >>> (count + 1) =
        ((⟨mantissa, false, false⟩ : ExtendedMantissa) >>> count).shiftRightOne := rfl
    have positive : 0 < Nat.pow 2 count := Nat.two_pow_pos count
    have fits := Nat.mod_lt mantissa positive
    have double : Nat.pow 2 (count + 1) = Nat.pow 2 count * 2 := Nat.pow_succ ..
    rw [step, ih, ExtendedMantissa.shiftRightOne, double, Nat.mod_mul, Nat.div_div_eq_div_mul]
    generalize mantissa % Nat.pow 2 count = rest at fits
    generalize Nat.pow 2 count = power at positive fits
    have bit := Nat.mod_two_eq_zero_or_one (mantissa / power)
    generalize mantissa / power % 2 = digit at bit
    have round : (digit != 0) = decide (power * 2 ≤ 2 * (rest + power * digit)) := by
      rcases bit with rfl | rfl
      · exact (decide_eq_false (by omega)).symm
      · exact (decide_eq_true (by omega)).symm
    have sticky : (decide (power ≤ 2 * rest) || decide (2 * rest ≠ 0 ∧ 2 * rest ≠ power)) =
        decide (2 * (rest + power * digit) ≠ 0 ∧ 2 * (rest + power * digit) ≠ power * 2) := by
      rw [← Bool.decide_or, decide_eq_decide]
      rcases bit with rfl | rfl
      · omega
      · omega
    rw [round, sticky]

/-- What is left after a shift is rounded as the quotient. -/
theorem roundedMantissa_shiftRight (mantissa count : Nat) :
    ((⟨mantissa, false, false⟩ : ExtendedMantissa) >>> count).roundedMantissa =
      Decimal.roundQuotient .toEven mantissa (Nat.pow 2 count) := by
  have positive : 0 < Nat.pow 2 count := Nat.two_pow_pos count
  rw [shiftRight_eq, Decimal.roundQuotient]
  generalize mantissa % Nat.pow 2 count = rest
  generalize Nat.pow 2 count = power at positive
  rcases Nat.lt_trichotomy (2 * rest) power with less | half | more
  · rw [if_pos less, decide_eq_false (Nat.not_le_of_lt less)]
    cases decide (2 * rest ≠ 0 ∧ 2 * rest ≠ power) <;> rfl
  · have exact : ¬(2 * rest ≠ 0 ∧ 2 * rest ≠ power) := fun both => both.2 half
    rw [if_neg (Nat.not_lt_of_ge (Nat.le_of_eq half.symm)), if_pos half,
      decide_eq_true (Nat.le_of_eq half.symm), decide_eq_false exact]
    rfl
  · have inexact : 2 * rest ≠ 0 ∧ 2 * rest ≠ power := by omega
    rw [if_neg (Nat.not_lt_of_gt more), if_neg (Nat.ne_of_gt more),
      decide_eq_true (Nat.le_of_lt more), decide_eq_true inexact]
    rfl

/-- Only the ratio of two numbers is rounded. -/
theorem roundQuotient_mul (dividend divisor : Nat) {scale : Nat} (positive : 0 < scale) :
    Decimal.roundQuotient .toEven (dividend * scale) (divisor * scale) =
      Decimal.roundQuotient .toEven dividend divisor := by
  have less : 2 * (dividend % divisor * scale) < divisor * scale ↔
      2 * (dividend % divisor) < divisor := by
    rw [← Nat.mul_assoc, Nat.mul_lt_mul_right positive]
  have half : 2 * (dividend % divisor * scale) = divisor * scale ↔
      2 * (dividend % divisor) = divisor := by
    rw [← Nat.mul_assoc, Nat.mul_right_cancel_iff positive]
  simp only [Decimal.roundQuotient, Nat.mul_div_mul_right _ _ positive, Nat.mul_mod_mul_right,
    less, half]

/-! ## Rounding unpacked doubles -/

/-- The magnitude of a significand with an exponent. -/
def scaled (significand : Nat) (exponent : Int) : Nat :=
  significand * Nat.pow 2 (exponent + 1074).toNat

/-- A factor of a power of two can stand in the significand or in the exponent. -/
theorem scaled_mul_pow {significand count : Nat} {exponent other : Int} (least : -1074 ≤ other)
    (sum : exponent = other + count) :
    scaled (significand * Nat.pow 2 count) other = scaled significand exponent := by
  have parts : (exponent + 1074).toNat = count + (other + 1074).toNat := by omega
  have split : Nat.pow 2 (count + (other + 1074).toNat) =
      Nat.pow 2 count * Nat.pow 2 (other + 1074).toNat := Nat.pow_add ..
  rw [scaled, scaled, parts, split, ← Nat.mul_assoc]

theorem log2_mul_pow {number : Nat} (positive : 0 < number) (power : Nat) :
    (number * Nat.pow 2 power).log2 = number.log2 + power := by
  have nonzero : number * Nat.pow 2 power ≠ 0 :=
    Nat.ne_of_gt (Nat.mul_pos positive (Nat.two_pow_pos power))
  have low := Nat.log2_self_le (Nat.ne_of_gt positive)
  refine (Nat.log2_eq_iff nonzero).2 ⟨?_, ?_⟩
  · rw [Nat.pow_add]
    exact Nat.mul_le_mul_right _ low
  · rw [Nat.add_right_comm, Nat.pow_add]
    exact Nat.mul_lt_mul_of_pos_right Nat.lt_log2_self (Nat.two_pow_pos power)

/-- The exponent with which a number has 53 binary digits, or the least exponent. -/
def target (significand : Nat) (exponent : Int) : Int :=
  format.targetExponent (totalExponent significand exponent)

theorem target_eq (significand : Nat) (exponent : Int) :
    target significand exponent = max (significand.log2 + exponent - 52) (-1074) := by
  have least : format.minExponent = -1074 := by decide
  have width : (format.mantissaBits : Int) = 53 := rfl
  rw [target, Format.targetExponent, totalExponent, least, width]
  congr 1
  omega

/-- Shifting to a greater exponent. -/
theorem shiftToTargetExponent_eq {significand : Nat} {exponent : Int}
    (le : exponent ≤ target significand exponent) :
    shiftToTargetExponent format significand exponent .exact =
      ((⟨significand, false, false⟩ : ExtendedMantissa) >>>
        (target significand exponent - exponent).toNat, target significand exponent) := by
  have reached : exponent + (target significand exponent - exponent).toNat =
      target significand exponent := by omega
  rw [shiftToTargetExponent, shiftToExponent, ← target, reached]
  rfl

/-- A number rounded at its target exponent is the nearest double. -/
theorem nearestDouble_scaled {significand : Nat} {exponent : Int} (positive : 0 < significand)
    (least : -1074 ≤ exponent) (le : exponent ≤ target significand exponent) :
    nearestDouble (scaled significand exponent) =
      scaled (Decimal.roundQuotient .toEven significand
        (Nat.pow 2 (target significand exponent - exponent).toNat))
          (target significand exponent) := by
  have digits : (scaled significand exponent).log2 =
      significand.log2 + (exponent + 1074).toNat := log2_mul_pow positive _
  have place : (scaled significand exponent).log2 - 52 =
      (target significand exponent + 1074).toNat := by
    rw [digits, target_eq]
    omega
  have parts : (target significand exponent + 1074).toNat =
      (target significand exponent - exponent).toNat + (exponent + 1074).toNat := by omega
  have split : Nat.pow 2 (target significand exponent + 1074).toNat =
      Nat.pow 2 (target significand exponent - exponent).toNat *
        Nat.pow 2 (exponent + 1074).toNat := by
    rw [parts]
    exact Nat.pow_add ..
  rw [nearestDouble_eq, spacing, place, scaled, scaled]
  congr 1
  rw [split]
  exact roundQuotient_mul _ _ (Nat.two_pow_pos _)

/-- A significand that is rounded at its target exponent has 53 binary digits, unless the exponent
is the least, or is the next power of two. -/
theorem roundQuotient_bounds {significand : Nat} {exponent : Int} (positive : 0 < significand)
    (least : -1074 ≤ exponent) (le : exponent ≤ target significand exponent) :
    let rounded := Decimal.roundQuotient .toEven significand
      (Nat.pow 2 (target significand exponent - exponent).toNat)
    0 < rounded ∧ rounded ≤ 2 * fractionEnd ∧
      (fractionEnd ≤ rounded ∨ target significand exponent = -1074) := by
  have eq := target_eq significand exponent
  generalize target significand exponent = goal at le eq
  generalize count_eq : (goal - exponent).toNat = count
  have one : 0 < Nat.pow 2 count := Nat.two_pow_pos count
  have cases := roundQuotient_cases significand (Nat.pow 2 count)
  have high : significand / Nat.pow 2 count < 2 * fractionEnd := by
    rw [Nat.div_lt_iff_lt_mul one]
    exact log2_lt_iff.1 (by omega)
  by_cases floor : goal = -1074
  · obtain rfl : count = 0 := by omega
    have unit : Nat.pow 2 0 = 1 := rfl
    rw [unit, Nat.div_one] at high
    rw [unit, Nat.div_one, Nat.mod_one] at cases
    rw [unit]
    omega
  · have low : fractionEnd ≤ significand / Nat.pow 2 count := by
      rw [Nat.le_div_iff_mul_le one]
      exact le_log2_iff.1 (by omega)
    have some := fractionEnd_pos
    omega

/-- A rounded significand may have one binary digit too many; then it is a power of two, and is
shifted once more. -/
theorem shiftToTargetExponent_rounded {significand : Nat} {exponent : Int}
    (positive : 0 < significand) (least : -1074 ≤ exponent) (fits : significand ≤ 2 * fractionEnd)
    (normal : fractionEnd ≤ significand ∨ exponent = -1074) :
    let shifted := shiftToTargetExponent format significand exponent .exact
    (-1074 ≤ shifted.2 ∧ shifted.1.mantissa < 2 * fractionEnd ∧
      (fractionEnd ≤ shifted.1.mantissa ∨ shifted.2 = -1074)) ∧
        0 < shifted.1.mantissa ∧
        scaled shifted.1.mantissa shifted.2 = scaled significand exponent := by
  rcases Nat.lt_or_eq_of_le fits with few | rfl
  · have same : target significand exponent = exponent := by
      have digits : significand.log2 < 53 := (Nat.log2_lt (Nat.ne_of_gt positive)).2 few
      have many : fractionEnd ≤ significand → 52 ≤ significand.log2 :=
        (Nat.le_log2 (Nat.ne_of_gt positive)).2
      rw [target_eq]
      omega
    rw [shiftToTargetExponent_eq (Int.le_of_eq same.symm), same, Int.sub_self]
    exact ⟨⟨least, few, normal⟩, positive, rfl⟩
  · have digits : (2 * fractionEnd).log2 = 53 := by decide
    have next : target (2 * fractionEnd) exponent = exponent + 1 := by
      rw [target_eq, digits]
      omega
    have once : exponent + 1 - exponent = 1 := by omega
    have power : (exponent + 1 + 1074).toNat = (exponent + 1074).toNat + 1 := by omega
    have double : Nat.pow 2 ((exponent + 1074).toNat + 1) = 2 * Nat.pow 2 (exponent + 1074).toNat :=
      Nat.pow_succ'
    rw [shiftToTargetExponent_eq (by omega), next, once]
    refine ⟨⟨by omega, (by decide : fractionEnd < 2 * fractionEnd), .inl (Nat.le_refl fractionEnd)⟩,
      fractionEnd_pos, ?_⟩
    show fractionEnd * Nat.pow 2 (exponent + 1 + 1074).toNat = scaled (2 * fractionEnd) exponent
    rw [power, double, scaled, Nat.mul_comm 2 fractionEnd, Nat.mul_assoc]

/-- Rounding at the target exponent gives the nearest double. -/
theorem ofUnpacked_roundWithAccuracy (sign : Sign) {significand : Nat} {exponent : Int}
    (positive : 0 < significand) (least : -1074 ≤ exponent)
    (le : exponent ≤ target significand exponent) :
    IsCanonical (roundWithAccuracy format sign significand exponent .exact) ∧
      Datum.ofUnpacked (roundWithAccuracy format sign significand exponent .exact) =
        .finite (isMinus sign) (nearestDouble (scaled significand exponent)) := by
  obtain ⟨some, fits, normal⟩ := roundQuotient_bounds positive least le
  obtain ⟨canonical, nonzero, same⟩ :=
    shiftToTargetExponent_rounded some (Int.le_trans least le) fits normal
  rw [roundWithAccuracy, shiftToTargetExponent_eq le]
  dsimp only
  rw [roundedMantissa_shiftRight, dif_neg (Nat.ne_of_gt nonzero)]
  refine ⟨canonical, ?_⟩
  rw [nearestDouble_scaled positive least le, ← same]
  rfl

/-- Rounding gives the nearest double. -/
theorem ofUnpacked_round (sign : Sign) {significand : Nat} {exponent : Int}
    (positive : 0 < significand) (least : -1074 ≤ exponent) :
    IsCanonical (UnpackedFloat.round format sign significand exponent) ∧
      Datum.ofUnpacked (UnpackedFloat.round format sign significand exponent) =
        .finite (isMinus sign) (nearestDouble (scaled significand exponent)) := by
  have eq := target_eq significand exponent
  rw [UnpackedFloat.round, ← target, decreaseExponent]
  dsimp only
  generalize target significand exponent = goal at eq
  generalize count_eq : (exponent - goal).toNat = count
  rw [Nat.shiftLeft_eq, ← Nat.pow_eq]
  have more : 0 < significand * Nat.pow 2 count := Nat.mul_pos positive (Nat.two_pow_pos count)
  have same : target (significand * Nat.pow 2 count) (exponent - count) = goal := by
    rw [target_eq, log2_mul_pow positive]
    omega
  have exact : scaled (significand * Nat.pow 2 count) (exponent - count) =
      scaled significand exponent := scaled_mul_pow (by omega) (by omega)
  rw [← exact]
  exact ofUnpacked_roundWithAccuracy sign more (by omega) (by omega)

/-! ## Sums -/

/-- The double nearest to an exact sum.  A sum of zero has a sign of its own. -/
def Datum.nearest (zeroSign : Bool) (exact : Int) : Datum :=
  if exact = 0 then .finite zeroSign 0
  else .finite (decide (exact < 0)) (nearestDouble exact.natAbs)

theorem ofUnpacked_normalize (zeroSign : Sign) (significand : Int) {exponent : Int}
    (least : -1074 ≤ exponent) :
    IsCanonical (UnpackedFloat.normalize format significand exponent zeroSign) ∧
      Datum.ofUnpacked (UnpackedFloat.normalize format significand exponent zeroSign) =
        Datum.nearest (isMinus zeroSign)
          (significand * (Nat.pow 2 (exponent + 1074).toNat : Nat)) := by
  have power : 0 < ((Nat.pow 2 (exponent + 1074).toNat : Nat) : Int) :=
    Int.natCast_pos.2 (Nat.two_pow_pos _)
  have size : scaled significand.natAbs exponent =
      (significand * (Nat.pow 2 (exponent + 1074).toNat : Nat)).natAbs := by
    rw [scaled, Int.natAbs_mul, Int.natAbs_natCast]
  rcases Int.lt_trichotomy significand 0 with below | rfl | above
  · have negative : significand * (Nat.pow 2 (exponent + 1074).toNat : Nat) < 0 :=
      Int.mul_neg_of_neg_of_pos below power
    have absolute : (-significand).toNat = significand.natAbs := by omega
    rw [UnpackedFloat.normalize, Int.compare_eq_lt.2 below, Datum.nearest,
      if_neg (Int.ne_of_lt negative), decide_eq_true negative, ← size, absolute]
    exact ofUnpacked_round .negative (by omega) least
  · rw [UnpackedFloat.normalize, Int.compare_eq_eq.2 rfl, Datum.nearest, Int.zero_mul, if_pos rfl]
    exact ⟨trivial, rfl⟩
  · have positive : 0 < significand * (Nat.pow 2 (exponent + 1074).toNat : Nat) :=
      Int.mul_pos above power
    have absolute : significand.toNat = significand.natAbs := by omega
    rw [UnpackedFloat.normalize, Int.compare_eq_gt.2 above, Datum.nearest,
      if_neg (Int.ne_of_gt positive), decide_eq_false (Int.lt_asymm positive), ← size, absolute]
    exact ofUnpacked_round .positive (by omega) least

/-- A significand with an exponent not less than another keeps its magnitude when it is written
with that other exponent. -/
theorem scaled_decreaseExponent {significand : Nat} {exponent other : Int}
    (least : -1074 ≤ other) (le : other ≤ exponent) :
    scaled (decreaseExponent significand exponent other).1 other = scaled significand exponent := by
  rw [decreaseExponent, Nat.shiftLeft_eq, ← Nat.pow_eq]
  exact scaled_mul_pow least (by omega)

theorem apply_mul_scale (sign : Sign) (significand : Nat) (exponent : Int) :
    sign.apply significand * (Nat.pow 2 (exponent + 1074).toNat : Nat) =
      signed (isMinus sign) (scaled significand exponent) := by
  cases sign with
  | negative => exact (Int.neg_mul _ _).trans (congrArg Neg.neg (Int.natCast_mul _ _).symm)
  | positive => exact (Int.natCast_mul _ _).symm

/-- A number that is a double is not rounded. -/
theorem nearest_signed (zeroSign negative : Bool) {units : Nat} (stored : IsMagnitude units)
    (positive : 0 < units) : Datum.nearest zeroSign (signed negative units) =
      .finite negative units := by
  have size : (signed negative units).natAbs = units := by
    cases negative with
    | false => rfl
    | true => exact Int.natAbs_neg _
  have sign : decide (signed negative units < 0) = negative := by
    cases negative with
    | false => exact decide_eq_false (Int.not_lt.2 (Int.natCast_nonneg units))
    | true => exact decide_eq_true (Int.neg_neg_of_pos (Int.natCast_pos.2 positive))
  have nonzero : signed negative units ≠ 0 := by
    rw [← Int.natAbs_ne_zero, size]
    exact Nat.ne_of_gt positive
  rw [Datum.nearest, if_neg nonzero, size, sign, nearestDouble_of_isMagnitude stored]

theorem signed_zero (negative : Bool) : signed negative 0 = 0 := by
  cases negative with
  | false => rfl
  | true => rfl

/-- The sign of a zero sum is that of a sum of zeros; two numbers below zero have no zero sum. -/
theorem nearest_and (negative other : Bool) {units : Nat} (more : Nat) (positive : 0 < units) :
    Datum.nearest (negative && other) (signed negative units + signed other more) =
      Datum.nearest false (signed negative units + signed other more) := by
  cases negative with
  | false => rfl
  | true =>
    cases other with
    | false => rfl
    | true =>
      have nonzero : signed true units + signed true more ≠ 0 := by
        simp only [signed, if_true]
        omega
      rw [Datum.nearest, Datum.nearest, if_neg nonzero, if_neg nonzero]

section

variable {sign sign' : Sign} {significand significand' : Nat} {exponent exponent' : Int}
  {positive : 0 < significand} {positive' : 0 < significand'}

/-- A canonical number is a double. -/
theorem nearest_scaled (canonical : IsCanonical (.finite sign significand exponent positive))
    (zeroSign : Bool) :
    Datum.nearest zeroSign (signed (isMinus sign) (scaled significand exponent)) =
      Datum.ofUnpacked (.finite sign significand exponent positive) :=
  nearest_signed zeroSign _ (isMagnitude_mul_pow (Nat.le_of_lt canonical.2.1) _)
    (Nat.mul_pos positive (Nat.two_pow_pos _))

theorem ofUnpacked_add_finite (first : IsCanonical (.finite sign significand exponent positive))
    (second : IsCanonical (.finite sign' significand' exponent' positive')) :
    let sum := UnpackedFloat.add format (.finite sign significand exponent positive)
      (.finite sign' significand' exponent' positive')
    IsCanonical sum ∧ Datum.ofUnpacked sum =
      Datum.nearest false (signed (isMinus sign) (scaled significand exponent) +
        signed (isMinus sign') (scaled significand' exponent')) := by
  have least : -1074 ≤ min exponent exponent' := Int.le_min.2 ⟨first.1, second.1⟩
  rw [← scaled_decreaseExponent least (Int.min_le_left _ _),
    ← scaled_decreaseExponent least (Int.min_le_right _ _), ← apply_mul_scale, ← apply_mul_scale,
    ← Int.add_mul]
  exact ofUnpacked_normalize .positive _ least

end

/-- The sum of finite doubles is the nearest double of the sum. -/
theorem ofUnpacked_add {f g : UnpackedFloat} (first : IsCanonical f) (second : IsCanonical g)
    {negative other : Bool} {units more : Nat}
    (left : Datum.ofUnpacked f = .finite negative units)
    (right : Datum.ofUnpacked g = .finite other more) :
    IsCanonical (UnpackedFloat.add format f g) ∧
      Datum.ofUnpacked (UnpackedFloat.add format f g) =
        Datum.nearest (negative && other) (signed negative units + signed other more) := by
  cases f with
  | notANumber => cases left
  | infinity sign => cases left
  | zero sign =>
    obtain ⟨rfl, rfl⟩ := Datum.finite.inj left
    rw [signed_zero, Int.zero_add]
    cases g with
    | notANumber => cases right
    | infinity sign' => cases right
    | zero sign' =>
      obtain ⟨rfl, rfl⟩ := Datum.finite.inj right
      rw [signed_zero]
      cases sign <;> cases sign' <;> exact ⟨trivial, rfl⟩
    | finite sign' significand exponent positive =>
      obtain ⟨rfl, rfl⟩ := Datum.finite.inj right
      exact ⟨second, (nearest_scaled second _).symm⟩
  | finite sign significand exponent positive =>
    obtain ⟨rfl, rfl⟩ := Datum.finite.inj left
    cases g with
    | notANumber => cases right
    | infinity sign' => cases right
    | zero sign' =>
      obtain ⟨rfl, rfl⟩ := Datum.finite.inj right
      rw [signed_zero, Int.add_zero]
      exact ⟨first, (nearest_scaled first _).symm⟩
    | finite sign' significand' exponent' positive' =>
      obtain ⟨rfl, rfl⟩ := Datum.finite.inj right
      have some : 0 < scaled significand exponent := Nat.mul_pos positive (Nat.two_pow_pos _)
      exact nearest_and _ _ _ some ▸ ofUnpacked_add_finite first second

/-- The sum of finite doubles is the double nearest to their exact sum, or an infinity. -/
theorem decode_add {x y : Float} {negative other : Bool} {units more : Nat}
    (left : decode x = .finite negative units) (right : decode y = .finite other more) :
    decode (x + y) =
      (Datum.nearest (negative && other) (signed negative units + signed other more)).bounded := by
  obtain ⟨first, left'⟩ := decode_eq_ofUnpacked x
  obtain ⟨second, right'⟩ := decode_eq_ofUnpacked y
  obtain ⟨canonical, sum⟩ := ofUnpacked_add first second (left'.symm.trans left)
    (right'.symm.trans right)
  rw [← sum]
  exact decode_pack canonical

end Formulary.Binary64
