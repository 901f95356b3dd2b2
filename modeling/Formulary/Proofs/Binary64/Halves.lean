import Formulary.Proofs.Binary64.Sums

/-!
# Doubles and a half

A half can be added to most doubles, or taken from them, without rounding, or at least
without a change of the whole part.  There are two exceptions: the double next below a half,
whose sum with a half is rounded up to one, and the odd numbers beyond `2 ^ 52`, whose
neighbours among the doubles are whole numbers, too, and even.

Main results:

- Theorems `nearestDouble_add_half` and `nearestDouble_sub_half`: from `2 ^ 52` on, a half more
  or less is rounded to an even number.
- Theorem `nearestDouble_one`: the double next below a half and a half make one.
- Theorem `nearestDouble_add_half_div`: below `2 ^ 52`, all other sums keep their whole part.
- Theorem `isMagnitude_sub_half`: a half less than a double of at most `2 ^ 52` is exact.
-/

namespace Formulary.Binary64

open Axis (nearestDouble)

/-! ## A half -/

/-- The binary place of a half, counted from that of the smallest positive double. -/
def halfPlaces : Nat := 1073

/-- The binary place of the distance of neighbouring doubles just below a half. -/
def gapPlaces : Nat := 1020

/-- A half in units of the smallest positive double. -/
def half : Nat := Nat.pow 2 halfPlaces

/-- The distance of neighbouring doubles just below a half. -/
def gap : Nat := Nat.pow 2 gapPlaces

theorem half_eq : half = 2 * fractionEnd * gap := by
  have split : ∀ low high, high = 53 + low →
      Nat.pow 2 high = 2 * fractionEnd * Nat.pow 2 low := by
    rintro low _ rfl
    exact Nat.pow_add 2 53 low
  unfold half gap
  exact split gapPlaces halfPlaces rfl

theorem one_eq : one = 2 * half := by
  have double : ∀ low high, high = low + 1 → Nat.pow 2 high = 2 * Nat.pow 2 low := by
    rintro low _ rfl
    exact Nat.pow_succ'
  unfold one half
  exact double halfPlaces places rfl

theorem gap_pos : 0 < gap := by
  have positive : ∀ power, 0 < Nat.pow 2 power := fun _ => Nat.two_pow_pos _
  unfold gap
  exact positive gapPlaces

theorem pow_gapPlaces_succ : Nat.pow 2 (gapPlaces + 1) = 2 * gap := by
  have double : ∀ power, Nat.pow 2 (power + 1) = 2 * Nat.pow 2 power := fun _ => Nat.pow_succ'
  unfold gap
  exact double gapPlaces

theorem decode_half : decode 0.5 = .finite false half := by decide +kernel

theorem half_pos : 0 < half := by
  rw [half_eq]
  exact Nat.mul_pos (by decide) gap_pos

theorem half_lt_one : half < one := by
  have some := half_pos
  rw [one_eq]
  omega

theorem gap_lt_half : gap < half := by
  have some := gap_pos
  have ending : fractionEnd = 4503599627370496 := rfl
  rw [half_eq, ending]
  omega

/-- The spacing of a number with 53 binary digits in front of the point. -/
theorem spacing_whole {whole rest : Nat} (large : fractionEnd ≤ whole) (fits : rest < one) :
    spacing (whole * one + rest) = spacing whole * one := by
  unfold one at fits ⊢
  exact spacing_mul_pow_add large fits

/-! ## Large whole numbers -/

section

variable {whole : Nat}

/-- A half more than a large whole number is rounded to an even one of its neighbours. -/
theorem nearestDouble_add_half (large : fractionEnd ≤ whole) (stored : IsMagnitude whole) :
    nearestDouble (whole * one + half) = (whole + whole % 2) * one := by
  have twice := one_eq
  have spaced := isMagnitude_iff_dvd.1 stored
  rw [nearestDouble_eq, spacing_whole large half_lt_one]
  -- The sum is halfway between two neighbours, or nearer to the number if they are farther apart.
  rcases spacing_eq_one_or_even whole with unit | ⟨wide, even⟩
  · rw [unit, Nat.one_mul, Nat.mul_comm whole one, roundQuotient_half twice.symm one_pos]
  · have parity : whole % 2 = 0 := Nat.mod_eq_zero_of_dvd (Nat.dvd_trans even spaced)
    have less : 2 * half < spacing whole * one := by
      have scaled := Nat.mul_le_mul_right one wide
      have some := one_pos
      omega
    have place : whole * one = spacing whole * one * (whole / spacing whole) := by
      rw [Nat.mul_right_comm, Nat.mul_div_cancel' spaced]
    rw [parity, Nat.add_zero, place, roundQuotient_below less, Nat.mul_comm]

/-- A half less than a large whole number is rounded to an even one of its neighbours. -/
theorem nearestDouble_sub_half (large : fractionEnd < whole) (stored : IsMagnitude whole) :
    nearestDouble (whole * one - half) = (whole - whole % 2) * one := by
  obtain ⟨previous, rfl⟩ : ∃ previous, whole = previous + 1 := ⟨whole - 1, by omega⟩
  have twice := one_eq
  have spaced : spacing previous ∣ previous + 1 :=
    Nat.dvd_trans (spacing_dvd_spacing (Nat.le_succ previous)) (isMagnitude_iff_dvd.1 stored)
  have below : (previous + 1) * one - half = previous * one + half := by
    rw [Nat.succ_mul]
    omega
  rw [below, nearestDouble_eq, spacing_whole (Nat.le_of_lt_succ large) half_lt_one]
  rcases spacing_eq_one_or_even previous with unit | ⟨wide, even⟩
  · have parity : previous + previous % 2 = previous + 1 - (previous + 1) % 2 := by omega
    rw [unit, Nat.one_mul, Nat.mul_comm previous one, roundQuotient_half twice.symm one_pos, parity]
  · have parity : (previous + 1) % 2 = 0 := Nat.mod_eq_zero_of_dvd (Nat.dvd_trans even spaced)
    have wider := Nat.mul_le_mul_right one wide
    have some := half_lt_one
    have place : (previous + 1) * one =
        spacing previous * one * ((previous + 1) / spacing previous) := by
      rw [Nat.mul_right_comm, Nat.mul_div_cancel' spaced]
    obtain ⟨times, next⟩ : ∃ times, (previous + 1) / spacing previous = times + 1 :=
      Nat.exists_eq_succ_of_ne_zero
        (Nat.ne_of_gt (Nat.div_pos (Nat.le_of_dvd (Nat.succ_pos _) spaced) (spacing_pos _)))
    rw [next] at place
    rw [parity, Nat.sub_zero, place]
    rw [Nat.succ_mul, Nat.mul_succ] at place
    have sum : previous * one + half =
        spacing previous * one * times + (spacing previous * one - half) := by omega
    rw [sum, roundQuotient_above (by omega) (by omega), Nat.mul_comm]

end

/-! ## Sums that are exact -/

section

variable {units : Nat}

theorem isMagnitude_whole {whole : Nat} (few : whole ≤ 2 * fractionEnd) :
    IsMagnitude (whole * one) := by
  unfold one
  exact isMagnitude_mul_pow few places

theorem isMagnitude_halves {times : Nat} (few : times ≤ 2 * fractionEnd) :
    IsMagnitude (times * half) := by
  unfold half
  exact isMagnitude_mul_pow few halfPlaces

theorem isMagnitude_gaps {times : Nat} (few : times ≤ 2 * fractionEnd) :
    IsMagnitude (times * (2 * gap)) := by
  rw [← pow_gapPlaces_succ]
  exact isMagnitude_mul_pow few _

/-- Below `2 ^ 52` halves are whole numbers of spacings. -/
theorem spacing_dvd_half (small : units < fractionEnd * one) : spacing units ∣ half := by
  rw [one_eq, ← Nat.mul_assoc, Nat.mul_comm fractionEnd 2] at small
  unfold half at small ⊢
  exact spacing_dvd_pow small

/-- From `2 ^ 52` on doubles are whole numbers. -/
theorem one_dvd_spacing (large : fractionEnd * one ≤ units) : one ∣ spacing units := by
  unfold one at large ⊢
  exact pow_dvd_spacing large

theorem one_dvd_next (reached : one ≤ units) : one ∣ 2 * fractionEnd * spacing units := by
  unfold one at reached ⊢
  exact pow_dvd_next reached

/-- A half less than a double of at most `2 ^ 52` is a double. -/
theorem isMagnitude_sub_half (stored : IsMagnitude units) (le : units ≤ fractionEnd * one) :
    IsMagnitude (units - half) := by
  rcases Nat.lt_or_eq_of_le le with small | top
  · have whole : spacing units ∣ units - half :=
      Nat.dvd_sub (isMagnitude_iff_dvd.1 stored) (spacing_dvd_half small)
    exact isMagnitude_of_dvd whole
      (Nat.le_of_lt (Nat.lt_of_le_of_lt (Nat.sub_le _ _) (lt_mul_spacing units)))
  · have halves : fractionEnd * one - half = (2 * fractionEnd - 1) * half := by
      rw [one_eq, Nat.sub_mul, Nat.one_mul, ← Nat.mul_assoc, Nat.mul_comm fractionEnd 2]
    rw [top, halves]
    exact isMagnitude_halves (Nat.sub_le _ _)

/-- A half more than a double from one to `2 ^ 52` is a double, if that does not pass a whole
number. -/
theorem isMagnitude_add_half (stored : IsMagnitude units) (small : units < fractionEnd * one)
    (reached : one ≤ units) (low : units % one < half) : IsMagnitude (units + half) := by
  have whole : spacing units ∣ units + half :=
    Nat.dvd_add (isMagnitude_iff_dvd.1 stored) (spacing_dvd_half small)
  have next : (units / one + 1) * one ≤ 2 * fractionEnd * spacing units := by
    have top := one_dvd_next reached
    rw [← Nat.div_mul_cancel top]
    refine Nat.mul_le_mul_right _ ((Nat.div_lt_iff_lt_mul one_pos).2 ?_)
    rw [Nat.div_mul_cancel top]
    exact lt_mul_spacing units
  have parts := Nat.div_add_mod' units one
  have twice := one_eq
  rw [Nat.succ_mul] at next
  exact isMagnitude_of_dvd whole (by omega)

/-! ## Sums below one -/

/-- A double below a half is two gaps below it, or is the one next to it. -/
theorem add_gap_le (stored : IsMagnitude units) (small : units < half)
    (other : units ≠ half - gap) : units + 2 * gap ≤ half := by
  have some := gap_pos
  have parts := half_eq
  have ending : fractionEnd = 4503599627370496 := rfl
  by_cases high : fractionEnd * gap ≤ units
  · have whole : gap ∣ units := by
      refine Nat.dvd_trans ?_ (isMagnitude_iff_dvd.1 stored)
      unfold gap at high ⊢
      exact pow_dvd_spacing high
    obtain ⟨times, multiple⟩ := whole
    have below : times < 2 * fractionEnd := by
      rw [multiple, parts, Nat.mul_comm gap] at small
      exact Nat.lt_of_mul_lt_mul_right small
    have apart : times ≠ 2 * fractionEnd - 1 := by
      intro last
      rw [multiple, parts, last, Nat.mul_comm gap, Nat.sub_mul, Nat.one_mul] at other
      exact other rfl
    have more : (times + 2) * gap ≤ 2 * fractionEnd * gap := Nat.mul_le_mul_right _ (by omega)
    rw [multiple, parts, Nat.mul_comm gap, ← Nat.add_mul]
    exact more
  · rw [ending] at high parts
    omega

/-- The sum of a half and the double next below it is rounded up to one. -/
theorem nearestDouble_one : nearestDouble (half - gap + half) = one := by
  have some := gap_pos
  have parts := half_eq
  have twice := one_eq
  have ending : fractionEnd = 4503599627370496 := rfl
  have spaced : spacing (half - gap + half) = 2 * gap := by
    rw [← pow_gapPlaces_succ]
    apply spacing_eq
    · rw [pow_gapPlaces_succ, parts, ending]
      omega
    · rw [pow_gapPlaces_succ, parts, ending]
      omega
  have place : half - gap + half = 2 * gap * (2 * fractionEnd - 1) + gap := by
    rw [parts, ending]
    omega
  have odd : 2 * fractionEnd - 1 + (2 * fractionEnd - 1) % 2 = 2 * fractionEnd := by decide
  rw [nearestDouble_eq, spaced, place, roundQuotient_half rfl (by omega), odd, twice, parts]
  exact Nat.mul_left_comm _ _ _

/-! ## Whole parts of sums -/

/-- Below `2 ^ 52` the sum with a half keeps its whole part when it is rounded, unless the double
is the one next below a half. -/
theorem nearestDouble_add_half_div (stored : IsMagnitude units) (small : units < fractionEnd * one)
    (other : units ≠ half - gap) :
    nearestDouble (units + half) / one = (units + half) / one := by
  have twice := one_eq
  have some := half_lt_one
  have parts := Nat.div_add_mod' (units + half) one
  have fits := Nat.mod_lt (units + half) one_pos
  have few : (units + half) / one ≤ 2 * fractionEnd := by
    refine Nat.le_of_lt ((Nat.div_lt_iff_lt_mul one_pos).2 ?_)
    have ending : fractionEnd = 4503599627370496 := rfl
    rw [ending] at small ⊢
    omega
  obtain ⟨low, near⟩ :=
    nearest_of_le (isMagnitude_whole few) (Nat.div_mul_le_self (units + half) one)
  refine Nat.div_eq_of_lt_le low ?_
  rw [Nat.succ_mul]
  -- The rounded sum stays below the next whole number: it is nearer to the last one, or it is
  -- below one by two gaps, or the sum is exact.
  by_cases less : (units + half) % one < half
  · omega
  · by_cases first : units < half
    · have ending : fractionEnd = 4503599627370496 := rfl
      have gaps := half_eq
      have apart := add_gap_le stored first other
      have below : units + half ≤ (2 * fractionEnd - 1) * (2 * gap) := by
        rw [ending] at gaps ⊢
        omega
      have bound := (nearest_of_ge (isMagnitude_gaps (Nat.sub_le _ _)) below).1
      have one_gap : (2 * fractionEnd - 1) * (2 * gap) < one := by
        have positive := gap_pos
        rw [ending] at gaps ⊢
        omega
      omega
    · generalize (units + half) / one = whole at parts
      generalize (units + half) % one = rest at parts fits less
      have place : units = one * whole + (rest - half) := by
        rw [Nat.mul_comm]
        omega
      have behind : units % one = rest - half := by
        rw [place, Nat.mul_add_mod]
        exact Nat.mod_eq_of_lt (by omega)
      have reached : one ≤ units := by
        rcases Nat.eq_zero_or_pos whole with rfl | positive
        · omega
        · have multiple := Nat.mul_le_mul_left one positive
          omega
      rw [nearestDouble_of_isMagnitude (isMagnitude_add_half stored small reached (by omega))]
      omega

end

/-- From `2 ^ 52` on a double is a whole number of at most 53 binary digits and zeros. -/
theorem exists_whole {units : Nat} (stored : IsMagnitude units)
    (large : fractionEnd * one ≤ units) :
    ∃ whole, units = whole * one ∧ fractionEnd ≤ whole ∧ IsMagnitude whole := by
  obtain ⟨whole, multiple⟩ : one ∣ units :=
    Nat.dvd_trans (one_dvd_spacing large) (isMagnitude_iff_dvd.1 stored)
  rw [Nat.mul_comm] at multiple
  rw [multiple] at large stored
  have reached : fractionEnd ≤ whole := Nat.le_of_mul_le_mul_right large one_pos
  have spaced := spacing_whole reached one_pos
  rw [Nat.add_zero] at spaced
  have multiples := isMagnitude_iff_dvd.1 stored
  rw [spaced] at multiples
  exact ⟨whole, multiple, reached,
    isMagnitude_iff_dvd.2 (Nat.dvd_of_mul_dvd_mul_right one_pos multiples)⟩

end Formulary.Binary64
