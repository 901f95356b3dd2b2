import Formulary.Signature.Basic
import Formulary.Text.Blank

/-!
# Matrix definitions

A definition may be given as a bracketed array.  Its arguments are then the
independent variables of the array, and are noted with the formula under fixed
keys.

Main results:

- Theorem `isMatrix_iff`: a definition counts as an array when its trimmed text
  opens and closes with a bracket.
-/

namespace Formulary

open Text

/-- A definition is a bracketed array when its trimmed text starts with an
opening bracket and ends with a later closing one. -/
def isMatrix : Option String → Bool
  | none => false
  | some definition =>
    match trim definition.toList with
    | '[' :: rest => rest.getLast? == some ']'
    | _ => false

/-- A definition counts as an array when its trimmed text opens and closes with
a bracket. -/
theorem isMatrix_iff {definition : String} :
    isMatrix (some definition) = true ↔
      ∃ inside, trim definition.toList = '[' :: inside ++ [']'] := by
  simp only [isMatrix]
  split
  · next rest h =>
    rw [h]
    simp only [beq_iff_eq, List.cons_append, List.cons.injEq, true_and]
    constructor
    · intro last
      obtain ⟨inside, rfl⟩ := List.getLast?_eq_some_iff.1 last
      exact ⟨inside, rfl⟩
    · rintro ⟨inside, rfl⟩
      simp
  · next h =>
    simp only [Bool.false_eq_true, false_iff, not_exists]
    intro inside hi
    exact h _ hi

/-! ## Noted variables -/

/-- The key under which an only independent variable is noted. -/
def independentVariable : String := "independent variable"

/-- The key under which the first of two independent variables is noted. -/
def independentVariable1 : String := "independent variable 1"

/-- The key under which the second of two independent variables is noted. -/
def independentVariable2 : String := "independent variable 2"

/-- The notes on the arguments of an array: one or two independent variables
are noted, other numbers of arguments are not. -/
def matrixNotes : List String → List (String × String)
  | [x] => [(independentVariable, x)]
  | [x, y] => [(independentVariable1, x), (independentVariable2, y)]
  | _ => []

end Formulary
