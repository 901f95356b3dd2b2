import Formulary.Proofs.Scalar.Reductions
import Mathlib.Data.Option.NAry
import Mathlib.Order.Lattice
import Mathlib.Order.Defs.LinearOrder

/-!
# The least and the greatest of doubles

The order of the doubles that are numbers is that of their ranks.  Two of them have one rank
only if they are the same, or both zeros.  So the least and the greatest of several doubles
depend neither on the order nor on the grouping, up to the sign of a zero.

Main results:

- Definition `Alike`: equality of doubles up to the sign of a zero.
- Theorem `magnitude_inj`: magnitudes of doubles have one encoding.
- Theorem `alike_iff`: doubles are alike exactly when they have one rank or none.
- Theorem `laws_reduce`: the laws of a step of a reduction.
-/

namespace Formulary.Binary64

/-! ## Doubles that count as the same -/

/-- A double that is not a number. -/
def IsNaN (x : Float) : Prop :=
  decode x = .notANumber

/-- One of the two zeros. -/
def IsZero (x : Float) : Prop :=
  ∃ negative, decode x = .finite negative 0

/-- Doubles are alike when they are the same up to the sign of a zero.  All that are not
numbers are alike. -/
def Alike (x y : Float) : Prop :=
  x = y ∨ (IsNaN x ∧ IsNaN y) ∨ (IsZero x ∧ IsZero y)

/-- The rank of a double that is a number. -/
def rank? (x : Float) : Option Int :=
  match decode x with
  | .notANumber => none
  | datum => some datum.rank

theorem rank?_eq_none_iff {x : Float} : rank? x = none ↔ IsNaN x := by
  rw [rank?, IsNaN]
  cases decode x <;> simp

theorem rank?_of_isZero {x : Float} (zero : IsZero x) : rank? x = some 0 := by
  obtain ⟨negative, zero⟩ := zero
  rw [rank?, zero]
  cases negative <;> rfl

/-! ## Magnitudes -/

theorem fractionEnd_pos : 0 < fractionEnd := Nat.two_pow_pos 52

/-- The magnitude that a stored exponent and a fraction stand for. -/
def magnitude (exponent fraction : Nat) : Nat :=
  if exponent = 0 then fraction else (fractionEnd + fraction) * Nat.pow 2 (exponent - 1)

theorem magnitude_succ (exponent fraction : Nat) :
    magnitude (exponent + 1) fraction = (fractionEnd + fraction) * Nat.pow 2 exponent := rfl

theorem magnitude_without_fraction {exponent power : Nat} (sum : power = 52 + exponent) :
    magnitude (exponent + 1) 0 = Nat.pow 2 power := by
  rw [magnitude_succ, Nat.add_zero, sum]
  exact (Nat.pow_add 2 52 exponent).symm

/-- A magnitude is below the least one with the next exponent. -/
theorem magnitude_lt_succ (exponent : Nat) {fraction : Nat} (fits : fraction < fractionEnd) :
    magnitude exponent fraction < magnitude (exponent + 1) 0 := by
  rw [magnitude_succ, Nat.add_zero]
  cases exponent with
  | zero => simpa [magnitude] using fits
  | succ exponent =>
    have double : Nat.pow 2 (exponent + 1) = 2 * Nat.pow 2 exponent := Nat.pow_succ'
    have below : fractionEnd + fraction < fractionEnd * 2 := by omega
    rw [magnitude_succ, double, ← Nat.mul_assoc]
    exact Nat.mul_lt_mul_of_pos_right below (Nat.two_pow_pos exponent)

/-- With one exponent, magnitudes grow with the fraction. -/
theorem magnitude_le_of_fraction (exponent : Nat) {fraction more : Nat}
    (le : fraction ≤ more) : magnitude exponent fraction ≤ magnitude exponent more := by
  unfold magnitude
  split
  · exact le
  · exact Nat.mul_le_mul_right _ (Nat.add_le_add_left le _)

/-- A magnitude with a lesser exponent is less. -/
theorem magnitude_lt_of_exponent {exponent greater fraction : Nat}
    (fits : fraction < fractionEnd) (lt : exponent < greater) (more : Nat) :
    magnitude exponent fraction < magnitude greater more := by
  induction greater, lt using Nat.le_induction generalizing more with
  | base =>
    exact Nat.lt_of_lt_of_le (magnitude_lt_succ exponent fits)
      (magnitude_le_of_fraction _ (Nat.zero_le more))
  | succ greater _ ih =>
    have next : magnitude exponent fraction < magnitude (greater + 1) 0 :=
      Nat.lt_trans (ih 0) (magnitude_lt_succ greater fractionEnd_pos)
    exact Nat.lt_of_lt_of_le next (magnitude_le_of_fraction _ (Nat.zero_le more))

/-- Magnitudes are encoded in one way only. -/
theorem magnitude_inj {exponent other fraction more : Nat} (fits : fraction < fractionEnd)
    (more_fits : more < fractionEnd)
    (same : magnitude exponent fraction = magnitude other more) :
    exponent = other ∧ fraction = more := by
  rcases Nat.lt_trichotomy exponent other with lt | rfl | gt
  · exact absurd same (Nat.ne_of_lt (magnitude_lt_of_exponent fits lt more))
  · refine ⟨rfl, ?_⟩
    unfold magnitude at same
    split at same
    · exact same
    · have sums := Nat.eq_of_mul_eq_mul_right (Nat.two_pow_pos (exponent - 1)) same
      omega
  · exact absurd same (Nat.ne_of_gt (magnitude_lt_of_exponent more_fits gt fraction))

/-! ## Ranks -/

/-- A magnitude with a sign. -/
def signed (negative : Bool) (units : Nat) : Int :=
  if negative then -(units : Int) else units

/-- Infinity ranks as if its exponent were one of a finite double. -/
theorem rank_infinite (negative : Bool) :
    (Datum.infinite negative).rank = signed negative (magnitude 2047 0) := by
  -- The power stays a variable: it is never to be computed.
  have rank : ∃ power, power = 52 + 2046 ∧
      (Datum.infinite negative).rank = signed negative (Nat.pow 2 power) := ⟨2098, rfl, rfl⟩
  obtain ⟨power, sum, rank⟩ := rank
  rw [rank, ← magnitude_without_fraction sum]

/-- The stored sign. -/
def isNegative (x : Float) : Bool :=
  decide (Nat.pow 2 63 ≤ x.toBits.toNat)

/-- The stored exponent. -/
def exponent (x : Float) : Nat :=
  x.toBits.toNat / fractionEnd % 2048

/-- The stored fraction. -/
def fraction (x : Float) : Nat :=
  x.toBits.toNat % fractionEnd

theorem fraction_lt (x : Float) : fraction x < fractionEnd :=
  Nat.mod_lt _ fractionEnd_pos

theorem exponent_lt (x : Float) : exponent x < 2048 :=
  Nat.mod_lt _ (by decide)

/-- A double is determined by its sign, its exponent and its fraction. -/
theorem eq_of_fields {x y : Float} (signs : isNegative x = isNegative y)
    (exponents : exponent x = exponent y) (fractions : fraction x = fraction y) : x = y := by
  have bits : x.toBits = y.toBits := by
    have fits : x.toBits.toNat < 18446744073709551616 := UInt64.toNat_lt x.toBits
    have fits' : y.toBits.toNat < 18446744073709551616 := UInt64.toNat_lt y.toBits
    have ending : fractionEnd = 4503599627370496 := rfl
    have sign : Nat.pow 2 63 = 9223372036854775808 := rfl
    rw [isNegative, isNegative, sign, decide_eq_decide] at signs
    rw [exponent, exponent, ending] at exponents
    rw [fraction, fraction, ending] at fractions
    apply UInt64.toNat_inj.1
    omega
  obtain ⟨⟨first, _⟩⟩ := x
  obtain ⟨⟨second, _⟩⟩ := y
  obtain rfl : first = second := bits
  rfl

/-- What is stored, taken apart. -/
theorem decode_eq (x : Float) :
    decode x =
      if exponent x = 2047 then
        if fraction x = 0 then .infinite (isNegative x) else .notANumber
      else .finite (isNegative x) (magnitude (exponent x) (fraction x)) := by
  unfold decode magnitude
  dsimp only
  rw [← exponent, ← fraction, ← isNegative]
  split
  · rfl
  · split
    · rfl
    · rfl

theorem isZero_of_magnitude {x : Float} (zero : magnitude (exponent x) (fraction x) = 0) :
    IsZero x := by
  have fields : exponent x = 0 ∧ fraction x = 0 :=
    magnitude_inj (fraction_lt x) fractionEnd_pos zero
  refine ⟨isNegative x, ?_⟩
  rw [decode_eq, zero, fields.1, if_neg (by decide)]

/-- The rank of a double in terms of what is stored. -/
theorem rank?_eq (x : Float) :
    rank? x = if exponent x = 2047 ∧ fraction x ≠ 0 then none
      else some (signed (isNegative x) (magnitude (exponent x) (fraction x))) := by
  rw [rank?, decode_eq]
  by_cases last : exponent x = 2047
  · rw [if_pos last]
    by_cases whole : fraction x = 0
    · rw [if_pos whole, if_neg fun both => both.2 whole, last, whole]
      exact congrArg some (rank_infinite _)
    · rw [if_neg whole, if_pos ⟨last, whole⟩]
  · rw [if_neg last, if_neg fun both => last both.1]
    rfl

theorem rank?_eq_some {x : Float} {rank : Int} (ranked : rank? x = some rank) :
    rank = signed (isNegative x) (magnitude (exponent x) (fraction x)) ∧
      ¬(exponent x = 2047 ∧ fraction x ≠ 0) := by
  rw [rank?_eq] at ranked
  split at ranked
  · cases ranked
  · next number => exact ⟨(Option.some.inj ranked).symm, number⟩

/-- No rank is beyond those of the infinities. -/
theorem rank_bounds {x : Float} {rank : Int} (ranked : rank? x = some rank) :
    signed true (magnitude 2047 0) ≤ rank ∧ rank ≤ signed false (magnitude 2047 0) := by
  obtain ⟨rfl, number⟩ := rank?_eq_some ranked
  have below : magnitude (exponent x) (fraction x) ≤ magnitude 2047 0 := by
    rcases Nat.lt_or_eq_of_le (Nat.le_of_lt_succ (exponent_lt x)) with lt | last
    · exact Nat.le_of_lt (magnitude_lt_of_exponent (fraction_lt x) lt 0)
    · rw [last, not_and_not_right.1 number last]
  generalize magnitude (exponent x) (fraction x) = units at below
  generalize magnitude 2047 0 = top at below
  cases isNegative x <;> simp only [signed, if_true, Bool.false_eq_true, if_false] <;> omega

/-! ## Alike doubles -/

/-- Magnitudes with a sign are equal only if they are without, and if the signs are
equal or there is nothing to sign. -/
theorem signed_inj {negative other : Bool} {units more : Nat}
    (same : signed negative units = signed other more) :
    units = more ∧ (negative = other ∨ units = 0) := by
  cases negative <;> cases other <;>
    simp only [signed, if_true, Bool.false_eq_true, if_false] at same <;> simp <;> omega

/-- Doubles are alike exactly when they have one rank or none. -/
theorem alike_iff {x y : Float} : Alike x y ↔ rank? x = rank? y := by
  constructor
  · rintro (rfl | ⟨left, right⟩ | ⟨left, right⟩)
    · rfl
    · rw [rank?_eq_none_iff.2 left, rank?_eq_none_iff.2 right]
    · rw [rank?_of_isZero left, rank?_of_isZero right]
  · intro same
    cases left : rank? x with
    | none => exact .inr (.inl ⟨rank?_eq_none_iff.1 left, rank?_eq_none_iff.1 (same ▸ left)⟩)
    | some rank =>
      have right : rank? y = some rank := same ▸ left
      obtain ⟨magnitudes, signs⟩ :=
        signed_inj ((rank?_eq_some left).1.symm.trans (rank?_eq_some right).1)
      obtain ⟨exponents, fractions⟩ := magnitude_inj (fraction_lt x) (fraction_lt y) magnitudes
      rcases signs with signs | zero
      · exact .inl (eq_of_fields signs exponents fractions)
      · exact .inr (.inr ⟨isZero_of_magnitude zero, isZero_of_magnitude (magnitudes ▸ zero)⟩)

theorem equivalence_alike : Equivalence Alike where
  refl _ := .inl rfl
  symm same := alike_iff.2 (alike_iff.1 same).symm
  trans first second := alike_iff.2 ((alike_iff.1 first).trans (alike_iff.1 second))

/-! ## Steps of reductions -/

/-- The rank that a reduction takes of two. -/
def extreme : Reduction → Int → Int → Int
  | .min => min
  | .max => max

/-- The choice between two doubles goes by their ranks, if they have any. -/
theorem rank?_select (choosesFirst : Int → Int → Bool) (x y : Float) :
    rank? (select choosesFirst x y) =
      Option.map₂ (fun a b => if choosesFirst a b then a else b) (rank? x) (rank? y) := by
  cases left : rank? x with
  | none =>
    have chosen : select choosesFirst x y = x := by
      rw [select, rank?_eq_none_iff.1 left]
    rw [chosen, left, Option.map₂_none_left]
  | some a =>
    cases right : rank? y with
    | none =>
      have chosen : select choosesFirst x y = y := by
        rw [select, rank?_eq_none_iff.1 right]
        cases datum : decode x with
        | notANumber => rw [rank?_eq_none_iff.2 datum] at left; cases left
        | infinite negative => rfl
        | finite negative units => rfl
      rw [chosen, right, Option.map₂_none_right]
    | some b =>
      have chosen : select choosesFirst x y = if choosesFirst a b then x else y := by
        rw [rank?] at left right
        cases first : decode x <;> cases second : decode y <;> simp_all [select]
      rw [chosen, Option.map₂_some_some]
      split
      · exact left
      · exact right

/-- A step of a reduction takes one of the ranks, if there are both. -/
theorem rank?_reduce (op : Reduction) (x y : Float) :
    rank? (Scalar.reduce op x y) = Option.map₂ (extreme op) (rank? x) (rank? y) := by
  have chosen : ∀ a b : Int, extreme .min a b = (if decide (a ≤ b) then a else b) ∧
      extreme .max a b = if decide (b ≤ a) then a else b := by
    intro a b
    simp only [extreme, decide_eq_true_eq]
    omega
  cases op with
  | min =>
    show rank? (least x y) = _
    rw [least, rank?_select]
    congr
    funext a b
    exact (chosen a b).1.symm
  | max =>
    show rank? (greatest x y) = _
    rw [greatest, rank?_select]
    congr
    funext a b
    exact (chosen a b).2.symm

theorem extreme_comm (op : Reduction) (a b : Int) : extreme op a b = extreme op b a := by
  cases op with
  | min => exact min_comm a b
  | max => exact max_comm a b

theorem extreme_assoc (op : Reduction) (a b c : Int) :
    extreme op (extreme op a b) c = extreme op a (extreme op b c) := by
  cases op with
  | min => exact min_assoc a b c
  | max => exact max_assoc a b c

/-- A reduction starts from the rank of the infinity that gives way to all others. -/
theorem rank?_start (op : Reduction) :
    rank? (Scalar.start op) = some (signed (op == .max) (magnitude 2047 0)) := by
  have start : decode (Scalar.start op) = .infinite (op == .max) := by
    cases op <;> decide +kernel
  rw [rank?, start]
  exact congrArg some (rank_infinite _)

/-- On doubles, a step of a reduction keeps the laws up to the sign of a zero. -/
theorem laws_reduce (op : Reduction) : op.Laws Alike IsNaN where
  equivalence := equivalence_alike
  congr left right := by
    rw [alike_iff] at left right ⊢
    rw [rank?_reduce, rank?_reduce, left, right]
  assoc x y z := by
    rw [alike_iff]
    simp only [rank?_reduce]
    exact Option.map₂_assoc (extreme_assoc op)
  comm x y := by
    rw [alike_iff, rank?_reduce, rank?_reduce]
    exact Option.map₂_comm (extreme_comm op)
  neutral x := by
    rw [alike_iff, rank?_reduce, rank?_start]
    cases ranked : rank? x with
    | none => rfl
    | some rank =>
      have bounds := rank_bounds ranked
      rw [Option.map₂_some_some]
      cases op with
      | min => exact congrArg some (min_eq_right bounds.2)
      | max => exact congrArg some (max_eq_right bounds.1)
  isNaN_congr same := by
    rw [← rank?_eq_none_iff, ← rank?_eq_none_iff, alike_iff.1 same]
  isNaN_reduce x y := by
    rw [← rank?_eq_none_iff, ← rank?_eq_none_iff, ← rank?_eq_none_iff, rank?_reduce,
      Option.map₂_eq_none_iff]
  isNumber_start := by
    rw [← rank?_eq_none_iff, rank?_start]
    exact Option.some_ne_none _

end Formulary.Binary64
