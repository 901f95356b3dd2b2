import Formulary.Binary64.Datum
import Formulary.Decimal.Numeral

/-!
# Written decimals

A layout says how a rounded number is written: with how many digits, for which
exponents positionally, and with what exponent otherwise.

Main results:

- Definition `general`: the general layout, which drops closing zeros and turns
  to exponents below `-4` and from the number of digits on.
- Theorem `Layout.general_precision_pos`: at least one digit is written.
- Theorem `general_zero`: both zeros are written, with their signs.
-/

namespace Formulary.Decimal

/-- The decisions of a written number.  Exponents from `leastFixed` up to below
`fixedEnd` are written positionally, and the others with an exponent of at least
`exponentWidth` digits.  Closing zeros and a closing point are kept or dropped. -/
structure Layout where
  precision : Nat
  tie : Tie
  leastFixed : Int
  fixedEnd : Int
  keepsZeros : Bool
  exponentWidth : Nat

/-- The general layout of numbers: ties to even, no closing zeros, exponents of
at least two digits.  At least one digit is written, also where none is asked for. -/
def Layout.general (precision : Nat) : Layout where
  precision := max 1 precision
  tie := .toEven
  leastFixed := -4
  fixedEnd := (max 1 precision : Nat)
  keepsZeros := false
  exponentWidth := 2

/-- The digits behind the point without their closing zeros. -/
def dropClosingZeros (digits : List Char) : List Char :=
  (digits.reverse.dropWhile (· == '0')).reverse

namespace Layout

/-- Digits in front of the point and digits behind it. -/
def placed (layout : Layout) (whole fraction : List Char) : List Char :=
  if layout.keepsZeros then whole ++ '.' :: fraction
  else match dropClosingZeros fraction with
    | [] => whole
    | fraction => whole ++ '.' :: fraction

/-- An exponent with its sign and its least number of digits. -/
def exponentMark (layout : Layout) (exponent : Int) : List Char :=
  let digits := digitsOf exponent.natAbs
  let sign := if exponent < 0 then '-' else '+'
  'e' :: sign :: List.replicate (layout.exponentWidth - digits.length) '0' ++ digits

/-- The written form of a rounded magnitude. -/
def write (layout : Layout) (numeral : Numeral) : List Char :=
  if layout.leastFixed ≤ numeral.exponent ∧ numeral.exponent < layout.fixedEnd then
    if 0 ≤ numeral.exponent then
      let split := numeral.exponent.toNat + 1
      layout.placed (numeral.digits.take split) (numeral.digits.drop split)
    else
      let zeros := List.replicate (numeral.exponent.natAbs - 1) '0'
      layout.placed ['0'] (zeros ++ numeral.digits)
  else
    layout.placed (numeral.digits.take 1) (numeral.digits.drop 1) ++
      layout.exponentMark numeral.exponent

/-- The written form of a finite double with the given sign and magnitude. -/
def writeFinite (layout : Layout) (negative : Bool) (units : Nat) : String :=
  let numeral := Numeral.ofFraction layout.tie layout.precision units Binary64.one
  String.ofList ((if negative then ['-'] else []) ++ layout.write numeral)

end Layout

/-- A double in the general layout. -/
def general (precision : Nat) (x : Float) : String :=
  match Binary64.decode x with
  | .notANumber => "nan"
  | .infinite negative => if negative then "-inf" else "inf"
  | .finite negative units => (Layout.general precision).writeFinite negative units

/-! ## Zeros -/

/-- Nothing is left of zeros behind the point. -/
theorem dropClosingZeros_replicate (count : Nat) :
    dropClosingZeros (List.replicate count '0') = [] := by
  simp [dropClosingZeros]

/-- The general layout writes at least one digit. -/
theorem Layout.general_precision_pos (precision : Nat) :
    0 < (Layout.general precision).precision :=
  Nat.lt_of_lt_of_le Nat.one_pos (Nat.le_max_left 1 precision)

/-- The magnitude zero is written as a single digit. -/
theorem Layout.write_zero (precision : Nat) :
    (Layout.general precision).write
      (Numeral.ofFraction .toEven (Layout.general precision).precision 0 Binary64.one) =
        ['0'] := by
  obtain ⟨more, digits⟩ := Nat.exists_eq_add_of_lt (Layout.general_precision_pos precision)
  rw [digits, Layout.write]
  simp [Numeral.ofFraction, Layout.general, Layout.placed, List.replicate_succ,
    dropClosingZeros_replicate]

/-- Both zeros are written, with their signs. -/
theorem general_zero (precision : Nat) :
    general precision 0.0 = "0" ∧ general precision (-0.0) = "-0" := by
  have positive : Binary64.decode 0.0 = .finite false 0 := by decide +kernel
  have negative : Binary64.decode (-0.0) = .finite true 0 := by decide +kernel
  have written := Layout.write_zero precision
  constructor
  · rw [general, positive]
    exact congrArg String.ofList written
  · rw [general, negative]
    exact congrArg (fun digits => String.ofList ('-' :: digits)) written

end Formulary.Decimal
