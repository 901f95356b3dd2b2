import Formulary.Bindings
import Formulary.Decimal.Layout
import Formulary.Expr.Basic

/-!
# Algebraic texts

Constants, variables and operations on variables are written as algebra writes
them: operands of a sum or a product in alphabetical order, and functions under
their mathematical names.

Main results:

- Definition `Expr.algebraic`: the algebraic text, or the reason why there is
  none.
-/

namespace Formulary

/-- Why an expression has no algebraic text: an operand is missing, or the
operands are not variables that can be set side by side. -/
inductive AlgebraicError
  | missingOperand
  | notSimple
deriving DecidableEq, Repr

/-- The layout of constants in algebraic texts: fifteen digits with their
closing zeros, ties away from zero, and positional from `-4` up to fourteen. -/
def Decimal.Layout.algebraic : Decimal.Layout where
  precision := 15
  tie := .awayFromZero
  leastFixed := -4
  fixedEnd := 15
  keepsZeros := true
  exponentWidth := 1

/-- A constant in algebraic texts. -/
def Decimal.algebraic (x : Float) : String :=
  match Binary64.decode x with
  | .notANumber => "nan"
  | .infinite negative => if negative then "-oo" else "oo"
  | .finite negative units =>
    if units = 0 then "0.0" else Layout.algebraic.writeFinite negative units

/-- A function of one argument of the variable `x`. -/
def UnaryOp.algebraic (op : UnaryOp) (x : String) : String :=
  match op with
  | .log10 => s!"log({x})/log(10)"
  | .abs => s!"Abs({x})"
  | .ceil => s!"ceiling({x})"
  | .round => s!"floor({x} + 1/2)"
  | .neg => s!"-{x}"
  | op => op.symbol ++ "(" ++ x ++ ")"

/-- Two texts in alphabetical order with `mark` between them. -/
def inOrder (mark x y : String) : String :=
  mark.intercalate (if x ≤ y then [x, y] else [y, x])

/-- A function of two arguments of the different variables `x` and `y`. -/
def BinaryOp.algebraic (op : BinaryOp) (x y : String) : String :=
  match op with
  | .add => inOrder " + " x y
  | .mul => inOrder "*" x y
  | .sub => if x < y then s!"{x} - {y}" else s!"-{y} + {x}"
  | .div => s!"{x}/{y}"
  | .pow => s!"{x}**{y}"
  | .mod => s!"fmod({x}, {y})"
  | .atan2 => s!"atan2({x}, {y})"

/-- A reduction of variables.  A single argument is reduced over its samples;
of several, each counts once. -/
def Reduction.algebraic (op : Reduction) (names : List String) : String :=
  let title := match op with
    | .min => "Min"
    | .max => "Max"
  match names with
  | [] => match op with
    | .min => "oo"
    | .max => "-oo"
  | [name] => op.symbol ++ "_over(" ++ name ++ ")"
  | names => match sortedNames names with
    | [name] => name
    | names => title ++ "(" ++ ", ".intercalate names ++ ")"

namespace Expr

/-- The name of an expression that is a variable. -/
def asVariable {α : Type} (expr : Expr α) : Except AlgebraicError String :=
  match expr.value.label with
  | .var name => .ok name
  | _ => .error .notSimple

/-- The algebraic text of a constant, a variable, or an operation on variables
that has its operands. -/
def algebraic (expr : Expr Float) : Except AlgebraicError String :=
  match expr.value.label, expr.children with
  | .const value, _ => .ok (Decimal.algebraic value)
  | .var name, _ => .ok name
  | .op (.unary op), operand :: _ => (asVariable operand).map op.algebraic
  | .op (.binary op), left :: right :: _ => do
    let x ← asVariable left
    let y ← asVariable right
    if x = y then .error .notSimple else .ok (op.algebraic x y)
  | .op (.reduction op), operands => (operands.mapM asVariable).map op.algebraic
  | _, _ => .error .missingOperand

end Expr

end Formulary
