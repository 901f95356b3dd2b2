import Formulary.Domain.Axis
import Formulary.Proofs.Binary64.Packing

/-!
# Nearest doubles

Between two powers of two doubles are evenly spaced, and a magnitude is one of a double
exactly if it is a multiple of the spacing where it stands.  A number is rounded to a
multiple of its own spacing, which is as near to the number as any magnitude of a double.

Main results:

- Theorem `isMagnitude_iff_dvd`: magnitudes of doubles are multiples of their own spacing.
- Theorem `nearestDouble_of_isMagnitude`: magnitudes of doubles are rounded to themselves.
- Theorems `nearest_of_le` and `nearest_of_ge`: no magnitude of a double is nearer.
-/

namespace Formulary.Binary64

open Axis (nearestDouble)

/-! ## Binary digits -/

section

variable {number power : Nat}

/-- The place of the leading binary digit of a number with at most 53 digits and zeros. -/
theorem log2_lt_iff : number.log2 < 53 + power ↔ number < 2 * fractionEnd * Nat.pow 2 power := by
  have scale : 2 ^ (53 + power) = 2 * fractionEnd * Nat.pow 2 power := Nat.pow_add ..
  rw [← scale]
  rcases Nat.eq_zero_or_pos number with rfl | positive
  · rw [Nat.log2_zero]
    exact iff_of_true (Nat.add_pos_left (by decide) power) (Nat.two_pow_pos _)
  · exact Nat.log2_lt (Nat.ne_of_gt positive)

/-- The place of the leading binary digit of a number with at least 53 digits and zeros. -/
theorem le_log2_iff : 52 + power ≤ number.log2 ↔ fractionEnd * Nat.pow 2 power ≤ number := by
  have scale : 2 ^ (52 + power) = fractionEnd * Nat.pow 2 power := Nat.pow_add ..
  rw [← scale]
  rcases Nat.eq_zero_or_pos number with rfl | positive
  · rw [Nat.log2_zero]
    exact iff_of_false (by omega) (Nat.not_le_of_lt (Nat.two_pow_pos _))
  · exact Nat.le_log2 (Nat.ne_of_gt positive)

end

theorem log2_mono {low high : Nat} (le : low ≤ high) : low.log2 ≤ high.log2 := by
  rw [Nat.log2_eq_log_two, Nat.log2_eq_log_two]
  exact Nat.log_mono_right le

/-! ## Spacing -/

/-- The distance of neighbouring doubles from the last power of two on. -/
def spacing (units : Nat) : Nat :=
  Nat.pow 2 (units.log2 - 52)

theorem spacing_pos (units : Nat) : 0 < spacing units :=
  Nat.two_pow_pos _

/-- Neighbours differ by one or by an even number. -/
theorem spacing_eq_one_or_even (units : Nat) :
    spacing units = 1 ∨ 2 ≤ spacing units ∧ 2 ∣ spacing units := by
  have positive := spacing_pos units
  rw [spacing] at positive ⊢
  generalize units.log2 - 52 = power at positive ⊢
  cases power with
  | zero => exact .inl rfl
  | succ power =>
    have even : 2 ∣ Nat.pow 2 (power + 1) := Nat.dvd_mul_left 2 _
    exact .inr ⟨Nat.le_of_dvd positive even, even⟩

/-- Farther from zero doubles stand in multiples of the distance. -/
theorem spacing_dvd_spacing {low high : Nat} (le : low ≤ high) : spacing low ∣ spacing high :=
  Nat.pow_dvd_pow 2 (Nat.sub_le_sub_right (log2_mono le) 52)

/-- Below `2 ^ 53` times a power of two, the spacing divides that power. -/
theorem spacing_dvd_pow {units power : Nat} (low : units < 2 * fractionEnd * Nat.pow 2 power) :
    spacing units ∣ Nat.pow 2 power := by
  have digits := log2_lt_iff.2 low
  exact Nat.pow_dvd_pow 2 (by omega)

/-- Multiples of a power of two with at most 53 binary digits keep to their spacing. -/
theorem spacing_dvd_mul {significand : Nat} (few : significand < 2 * fractionEnd)
    (power : Nat) : spacing (significand * Nat.pow 2 power) ∣ significand * Nat.pow 2 power := by
  have low : significand * Nat.pow 2 power < 2 * fractionEnd * Nat.pow 2 power :=
    Nat.mul_lt_mul_of_pos_right few (Nat.two_pow_pos power)
  exact Nat.dvd_mul_left_of_dvd (spacing_dvd_pow low) significand

/-- Below the first 53 binary digits neighbours differ by one. -/
theorem spacing_of_lt {units : Nat} (small : units < 2 * fractionEnd) : spacing units = 1 := by
  rw [← Nat.mul_one (2 * fractionEnd)] at small
  exact Nat.dvd_one.1 (spacing_dvd_pow (show units < 2 * fractionEnd * Nat.pow 2 0 from small))

/-- A magnitude spans less than `2 ^ 53` spacings. -/
theorem lt_mul_spacing (units : Nat) : units < 2 * fractionEnd * spacing units :=
  log2_lt_iff.1 (by omega)

/-- A magnitude that is not among the least spans `2 ^ 52` spacings. -/
theorem mul_spacing_le {units : Nat} (normal : fractionEnd ≤ units) :
    fractionEnd * spacing units ≤ units := by
  rw [← Nat.mul_one fractionEnd] at normal
  have digits := le_log2_iff.2 (show fractionEnd * Nat.pow 2 0 ≤ units from normal)
  exact le_log2_iff.1 (by omega)

/-- Between two powers of two the spacing is constant. -/
theorem spacing_eq {units power : Nat} (low : fractionEnd * Nat.pow 2 power ≤ units)
    (high : units < 2 * fractionEnd * Nat.pow 2 power) : spacing units = Nat.pow 2 power := by
  have least := le_log2_iff.2 low
  have most := log2_lt_iff.2 high
  have digits : units.log2 = power + 52 := by omega
  rw [spacing, digits, Nat.add_sub_cancel]

/-- What stands behind the last of 53 binary digits does not change the spacing. -/
theorem spacing_mul_pow_add {whole rest power : Nat} (large : fractionEnd ≤ whole)
    (fits : rest < Nat.pow 2 power) :
    spacing (whole * Nat.pow 2 power + rest) = spacing whole * Nat.pow 2 power := by
  have sum : Nat.pow 2 (whole.log2 - 52 + power) = spacing whole * Nat.pow 2 power :=
    Nat.pow_add ..
  rw [← sum]
  apply spacing_eq
  · rw [sum, ← Nat.mul_assoc]
    exact Nat.le_trans (Nat.mul_le_mul_right _ (mul_spacing_le large)) (Nat.le_add_right _ _)
  · rw [sum, ← Nat.mul_assoc]
    refine Nat.lt_of_lt_of_le ?_ (Nat.mul_le_mul_right _ (lt_mul_spacing whole))
    rw [Nat.succ_mul]
    exact Nat.add_lt_add_left fits _

/-- A power of two that a number reaches divides the next power of two above the number. -/
theorem pow_dvd_next {units power : Nat} (reached : Nat.pow 2 power ≤ units) :
    Nat.pow 2 power ∣ 2 * fractionEnd * spacing units := by
  have positive : 0 < units := Nat.lt_of_lt_of_le (Nat.two_pow_pos power) reached
  have digits : power ≤ units.log2 := (Nat.le_log2 (Nat.ne_of_gt positive)).2 reached
  have next : 2 ^ (53 + (units.log2 - 52)) = 2 * fractionEnd * spacing units := Nat.pow_add ..
  rw [← next]
  exact Nat.pow_dvd_pow 2 (by omega)

/-- Magnitudes of doubles are the multiples of their own spacing. -/
theorem isMagnitude_iff_dvd {units : Nat} : IsMagnitude units ↔ spacing units ∣ units := by
  constructor
  · rintro ⟨exponent, fraction, fits, rfl⟩
    cases exponent with
    | zero =>
      have small : fraction < 2 * fractionEnd := by omega
      exact spacing_of_lt small ▸ Nat.one_dvd fraction
    | succ exponent => exact spacing_dvd_mul (by omega) exponent
  · rintro ⟨significand, whole⟩
    have span : units = significand * spacing units := whole.trans (Nat.mul_comm _ _)
    by_cases normal : fractionEnd ≤ units
    · have low : fractionEnd ≤ significand :=
        Nat.le_of_mul_le_mul_right (Nat.le_trans (mul_spacing_le normal) (Nat.le_of_eq span))
          (spacing_pos units)
      have high : significand < 2 * fractionEnd :=
        Nat.lt_of_mul_lt_mul_right (Nat.lt_of_le_of_lt (Nat.le_of_eq span.symm)
          (lt_mul_spacing units))
      exact ⟨units.log2 - 52 + 1, significand - fractionEnd, by omega,
        span.trans (magnitude_sub_fractionEnd low).symm⟩
    · exact ⟨0, units, Nat.lt_of_not_le normal, rfl⟩

/-- Multiples of a power of two with at most 53 binary digits, and the next power of two, are
magnitudes of doubles. -/
theorem isMagnitude_mul_pow {significand : Nat} (few : significand ≤ 2 * fractionEnd)
    (power : Nat) : IsMagnitude (significand * Nat.pow 2 power) := by
  rw [isMagnitude_iff_dvd]
  rcases Nat.lt_or_eq_of_le few with few | rfl
  · exact spacing_dvd_mul few power
  · have shifted : 2 * fractionEnd * Nat.pow 2 power = fractionEnd * Nat.pow 2 (power + 1) := by
      have next : Nat.pow 2 (power + 1) = 2 * Nat.pow 2 power := Nat.pow_succ'
      rw [next, Nat.mul_comm 2 fractionEnd, Nat.mul_assoc]
    rw [shifted]
    exact spacing_dvd_mul (by decide) (power + 1)

/-- Multiples of a spacing, up to the next power of two, are magnitudes of doubles. -/
theorem isMagnitude_of_dvd {units other : Nat} (whole : spacing other ∣ units)
    (le : units ≤ 2 * fractionEnd * spacing other) : IsMagnitude units := by
  obtain ⟨times, rfl⟩ := whole
  rw [Nat.mul_comm] at le ⊢
  exact isMagnitude_mul_pow (Nat.le_of_mul_le_mul_right le (spacing_pos other)) _

/-- The magnitude of a finite double. -/
theorem isMagnitude_of_decode {x : Float} {negative : Bool} {units : Nat}
    (finite : decode x = .finite negative units) :
    IsMagnitude units ∧ units < magnitude 2047 0 := by
  rw [decode_eq] at finite
  split at finite
  · split at finite <;> cases finite
  · next small =>
    obtain ⟨-, rfl⟩ := Datum.finite.inj finite
    have stored : exponent x < 2047 := by
      have word := exponent_lt x
      omega
    exact ⟨⟨exponent x, fraction x, fraction_lt x, rfl⟩,
      (magnitude_lt_infinite (fraction_lt x)).2 stored⟩

/-! ## Rounding -/

/-- A quotient is rounded down when the rest is at most a half, and up when it is at least a
half. -/
theorem roundQuotient_cases (dividend divisor : Nat) :
    (Decimal.roundQuotient .toEven dividend divisor = dividend / divisor ∧
        2 * (dividend % divisor) ≤ divisor) ∨
      (Decimal.roundQuotient .toEven dividend divisor = dividend / divisor + 1 ∧
        divisor ≤ 2 * (dividend % divisor)) := by
  rw [Decimal.roundQuotient]
  split
  · exact .inl ⟨rfl, by omega⟩
  · split
    · next half =>
      rcases Nat.mod_two_eq_zero_or_one (dividend / divisor) with even | odd
      · exact .inl ⟨by rw [even, Nat.add_zero], by omega⟩
      · exact .inr ⟨by rw [odd], by omega⟩
    · exact .inr ⟨rfl, by omega⟩

/-- A number that falls short of a half spacing above a multiple of it is rounded down. -/
theorem roundQuotient_below {times divisor rest : Nat} (less : 2 * rest < divisor) :
    Decimal.roundQuotient .toEven (divisor * times + rest) divisor = times := by
  have fits : rest < divisor := by omega
  have positive : 0 < divisor := by omega
  rw [Decimal.roundQuotient, Nat.mul_add_mod, Nat.mod_eq_of_lt fits, if_pos less,
    Nat.mul_add_div positive, Nat.div_eq_of_lt fits, Nat.add_zero]

/-- A number halfway between two multiples is rounded to an even one. -/
theorem roundQuotient_half {times divisor rest : Nat} (half : 2 * rest = divisor)
    (positive : 0 < divisor) :
    Decimal.roundQuotient .toEven (divisor * times + rest) divisor = times + times % 2 := by
  have fits : rest < divisor := by omega
  rw [Decimal.roundQuotient, Nat.mul_add_mod, Nat.mod_eq_of_lt fits,
    if_neg (Nat.not_lt_of_ge (Nat.le_of_eq half.symm)), if_pos half,
    Nat.mul_add_div positive, Nat.div_eq_of_lt fits, Nat.add_zero]

/-- A number more than a half above a multiple is rounded up. -/
theorem roundQuotient_above {times divisor rest : Nat} (more : divisor < 2 * rest)
    (fits : rest < divisor) :
    Decimal.roundQuotient .toEven (divisor * times + rest) divisor = times + 1 := by
  have positive : 0 < divisor := by omega
  rw [Decimal.roundQuotient, Nat.mul_add_mod, Nat.mod_eq_of_lt fits,
    if_neg (Nat.not_lt_of_gt more), if_neg (Nat.ne_of_gt more), Nat.mul_add_div positive,
    Nat.div_eq_of_lt fits, Nat.add_zero]

theorem nearestDouble_eq (units : Nat) :
    nearestDouble units =
      Decimal.roundQuotient .toEven units (spacing units) * spacing units := rfl

/-- Magnitudes of doubles are rounded to themselves. -/
theorem nearestDouble_of_isMagnitude {units : Nat} (stored : IsMagnitude units) :
    nearestDouble units = units := by
  have whole := isMagnitude_iff_dvd.1 stored
  have rest : 2 * (units % spacing units) < spacing units := by
    rw [Nat.mod_eq_zero_of_dvd whole]
    exact spacing_pos units
  rw [nearestDouble_eq, Decimal.roundQuotient, if_pos rest, Nat.div_mul_cancel whole]

/-- From `2 ^ 52` times a power of two on, the spacing is a multiple of that power. -/
theorem pow_dvd_spacing {units power : Nat} (high : fractionEnd * Nat.pow 2 power ≤ units) :
    Nat.pow 2 power ∣ spacing units := by
  have digits := le_log2_iff.2 high
  exact Nat.pow_dvd_pow 2 (by omega)

/-- Magnitudes of doubles that are not above a number are not above the multiple of the spacing
that is next below it. -/
theorem le_div_mul_spacing {units other : Nat} (stored : IsMagnitude other) (le : other ≤ units) :
    other ≤ units / spacing units * spacing units := by
  by_cases high : fractionEnd * spacing units ≤ other
  · have whole : spacing units ∣ other :=
      Nat.dvd_trans (pow_dvd_spacing high) (isMagnitude_iff_dvd.1 stored)
    rw [← Nat.div_mul_cancel whole]
    exact Nat.mul_le_mul_right _ (Nat.div_le_div_right le)
  · by_cases normal : fractionEnd ≤ units
    · have reached : fractionEnd ≤ units / spacing units :=
        (Nat.le_div_iff_mul_le (spacing_pos units)).2 (mul_spacing_le normal)
      exact Nat.le_trans (Nat.le_of_lt (Nat.lt_of_not_le high)) (Nat.mul_le_mul_right _ reached)
    · rw [spacing_of_lt (by omega), Nat.div_one, Nat.mul_one]
      exact le

/-- A magnitude of a double that is not above a number is neither above the nearest one nor
nearer than it. -/
theorem nearest_of_le {units other : Nat} (stored : IsMagnitude other) (le : other ≤ units) :
    other ≤ nearestDouble units ∧ nearestDouble units + other ≤ 2 * units := by
  have below := le_div_mul_spacing stored le
  have parts := Nat.div_add_mod' units (spacing units)
  rw [nearestDouble_eq]
  rcases roundQuotient_cases units (spacing units) with ⟨down, -⟩ | ⟨up, half⟩
  · rw [down]
    omega
  · rw [up, Nat.succ_mul]
    omega

/-- A magnitude of a double that is not below a number is neither below the nearest one nor
nearer than it. -/
theorem nearest_of_ge {units other : Nat} (stored : IsMagnitude other) (ge : units ≤ other) :
    nearestDouble units ≤ other ∧ 2 * units ≤ nearestDouble units + other := by
  have parts := Nat.div_add_mod' units (spacing units)
  have rest := Nat.mod_lt units (spacing_pos units)
  have whole : spacing units ∣ other :=
    Nat.dvd_trans (spacing_dvd_spacing ge) (isMagnitude_iff_dvd.1 stored)
  have next : units % spacing units = 0 ∨ (units / spacing units + 1) * spacing units ≤ other := by
    rcases Nat.lt_or_eq_of_le ge with lt | rfl
    · right
      rw [← Nat.div_mul_cancel whole] at lt ⊢
      exact Nat.mul_le_mul_right _ ((Nat.div_lt_iff_lt_mul (spacing_pos units)).2 lt)
    · exact .inl (Nat.mod_eq_zero_of_dvd whole)
  rw [Nat.succ_mul] at next
  rw [nearestDouble_eq]
  rcases roundQuotient_cases units (spacing units) with ⟨down, half⟩ | ⟨up, half⟩
  · rw [down]
    omega
  · rw [up, Nat.succ_mul]
    omega

end Formulary.Binary64
