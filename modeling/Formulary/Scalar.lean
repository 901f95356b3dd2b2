import Formulary.Binary64.Arithmetic
import Formulary.Binary64.Rounding
import Formulary.Operator

/-!
# Scalars

Formulas are evaluated over samples of any type on which the operators mean
something.  This module says what the operators need, and gives their meaning
on doubles.

Main results:

- Class `Scalar`: the meaning of the operators on one sample.
- Instance `instScalarFloat`: their meaning on doubles.
-/

namespace Formulary

/-- The meaning of the operators on samples of type `α`. -/
class Scalar (α : Type) where
  /-- The value of a function of one argument. -/
  unary : UnaryOp → α → α
  /-- The value of a function of two arguments. -/
  binary : BinaryOp → α → α → α
  /-- One step of a reduction. -/
  reduce : Reduction → α → α → α
  /-- The value from which a reduction of several arguments starts. -/
  start : Reduction → α
  /-- A constant is admissible when it is finite. -/
  isFinite : α → Bool

namespace Binary64

/-- The functions of one argument on doubles. -/
def unary : UnaryOp → Float → Float
  | .sin => Float.sin
  | .cos => Float.cos
  | .tan => Float.tan
  | .asin => Float.asin
  | .acos => Float.acos
  | .atan => Float.atan
  | .sinh => Float.sinh
  | .cosh => Float.cosh
  | .tanh => Float.tanh
  | .exp => Float.exp
  | .log => Float.log
  | .log10 => Float.log10
  | .sqrt => Float.sqrt
  | .abs => Float.abs
  | .floor => floor
  | .ceil => ceil
  | .round => round
  | .neg => Float.neg
  | .sign => sign

/-- The functions of two arguments on doubles. -/
def binary : BinaryOp → Float → Float → Float
  | .add => Float.add
  | .sub => Float.sub
  | .mul => Float.mul
  | .div => Float.div
  | .pow => Float.pow
  | .mod => remainder
  | .atan2 => Float.atan2

/-- One step of a reduction of doubles. -/
def reduce : Reduction → Float → Float → Float
  | .min => least
  | .max => greatest

/-- No double is above the start of a minimum or below that of a maximum. -/
def start : Reduction → Float
  | .min => infinity
  | .max => negativeInfinity

end Binary64

instance instScalarFloat : Scalar Float where
  unary := Binary64.unary
  binary := Binary64.binary
  reduce := Binary64.reduce
  start := Binary64.start
  isFinite := Binary64.isFinite

end Formulary
