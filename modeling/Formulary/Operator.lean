/-!
# Operators

The operators of formulas: functions of one argument, functions of two
arguments, and reductions of any number of arguments.  Each has the symbol
under which formulas use it, a name and a number.

Main results:

- Theorems `UnaryOp.ofSymbol?_symbol`, `BinaryOp.ofSymbol?_symbol` and
  `Reduction.ofSymbol?_symbol`: every operator is found under its symbol.
- Theorem `Operation.all_code`: the numbers are the places in the list of all
  operations.
-/

namespace Formulary

/-! ## One argument -/

/-- Functions of one argument, applied to each sample. -/
inductive UnaryOp
  | sin | cos | tan | asin | acos | atan | sinh | cosh | tanh
  | exp | log | log10 | sqrt | abs | floor | ceil | round | neg | sign
deriving DecidableEq, Repr

namespace UnaryOp

/-- The functions of one argument in the order of their numbers. -/
def all : List UnaryOp :=
  [sin, cos, tan, asin, acos, atan, sinh, cosh, tanh,
    exp, log, log10, sqrt, abs, floor, ceil, round, neg, sign]

/-- The symbol in formulas. -/
def symbol : UnaryOp → String
  | sin => "sin" | cos => "cos" | tan => "tan"
  | asin => "asin" | acos => "acos" | atan => "atan"
  | sinh => "sinh" | cosh => "cosh" | tanh => "tanh"
  | exp => "exp" | log => "log" | log10 => "log10"
  | sqrt => "sqrt" | abs => "abs" | floor => "floor" | ceil => "ceil"
  | round => "round" | neg => "neg" | sign => "sign"

/-- The name in capitals. -/
def name : UnaryOp → String
  | sin => "SIN" | cos => "COS" | tan => "TAN"
  | asin => "ASIN" | acos => "ACOS" | atan => "ATAN"
  | sinh => "SINH" | cosh => "COSH" | tanh => "TANH"
  | exp => "EXP" | log => "LOG" | log10 => "LOG10"
  | sqrt => "SQRT" | abs => "ABS" | floor => "FLOOR" | ceil => "CEIL"
  | round => "ROUND" | neg => "NEG" | sign => "SIGN"

/-- The function with a given symbol. -/
def ofSymbol? (symbol : String) : Option UnaryOp :=
  all.find? (·.symbol == symbol)

/-- Every function of one argument is found under its symbol. -/
@[simp]
theorem ofSymbol?_symbol (op : UnaryOp) : ofSymbol? op.symbol = some op := by
  cases op <;> decide +kernel

end UnaryOp

/-! ## Two arguments -/

/-- Functions of two arguments, applied sample by sample. -/
inductive BinaryOp
  | add | sub | mul | div | pow | mod | atan2
deriving DecidableEq, Repr

namespace BinaryOp

/-- The functions of two arguments in the order of their numbers. -/
def all : List BinaryOp :=
  [add, sub, mul, div, pow, mod, atan2]

/-- The symbol in formulas. -/
def symbol : BinaryOp → String
  | add => "+" | sub => "-" | mul => "*" | div => "/"
  | pow => "^" | mod => "%" | atan2 => "atan2"

/-- The name in capitals. -/
def name : BinaryOp → String
  | add => "ADD" | sub => "SUB" | mul => "MUL" | div => "DIV"
  | pow => "POW" | mod => "MOD" | atan2 => "ATAN2"

/-- The function with a given symbol. -/
def ofSymbol? (symbol : String) : Option BinaryOp :=
  all.find? (·.symbol == symbol)

/-- Every function of two arguments is found under its symbol. -/
@[simp]
theorem ofSymbol?_symbol (op : BinaryOp) : ofSymbol? op.symbol = some op := by
  cases op <;> decide +kernel

end BinaryOp

/-! ## Any number of arguments -/

/-- Reductions, which take the least or the greatest of their arguments. -/
inductive Reduction
  | min | max
deriving DecidableEq, Repr

namespace Reduction

/-- The reductions in the order of their numbers. -/
def all : List Reduction :=
  [min, max]

/-- The symbol in formulas. -/
def symbol : Reduction → String
  | min => "min" | max => "max"

/-- The name in capitals. -/
def name : Reduction → String
  | min => "MIN" | max => "MAX"

/-- The reduction with a given symbol. -/
def ofSymbol? (symbol : String) : Option Reduction :=
  all.find? (·.symbol == symbol)

/-- Every reduction is found under its symbol. -/
@[simp]
theorem ofSymbol?_symbol (op : Reduction) : ofSymbol? op.symbol = some op := by
  cases op <;> decide +kernel

end Reduction

/-! ## All operations -/

/-- An operation of any family. -/
inductive Operation
  | unary (op : UnaryOp)
  | binary (op : BinaryOp)
  | reduction (op : Reduction)
deriving DecidableEq, Repr

namespace Operation

/-- All operations, those of two arguments first and the reductions last. -/
def all : List Operation :=
  BinaryOp.all.map binary ++ UnaryOp.all.map unary ++ Reduction.all.map reduction

/-- The symbol in formulas. -/
def symbol : Operation → String
  | unary op => op.symbol
  | binary op => op.symbol
  | reduction op => op.symbol

/-- The name in capitals. -/
def name : Operation → String
  | unary op => op.name
  | binary op => op.name
  | reduction op => op.name

/-- The number of an operation is its place in the list of all operations. -/
def code (op : Operation) : Nat :=
  all.idxOf op

/-- The operation with a given name. -/
def ofName? (name : String) : Option Operation :=
  all.find? (·.name == name)

/-- The numbers are the places in the list of all operations. -/
theorem all_code : all.map code = List.range all.length := by
  decide +kernel

/-- Every operation is found under its name. -/
@[simp]
theorem ofName?_name (op : Operation) : ofName? op.name = some op := by
  cases op with
  | unary op => cases op <;> decide +kernel
  | binary op => cases op <;> decide +kernel
  | reduction op => cases op <;> decide +kernel

end Operation

/-! ## Kinds of nodes -/

/-- The kinds of nodes of a formula. -/
inductive Kind
  | const | var | unary | binary | reduction
deriving DecidableEq, Repr

namespace Kind

/-- The kinds in the order of their numbers. -/
def all : List Kind :=
  [const, var, unary, binary, reduction]

/-- The name in capitals. -/
def name : Kind → String
  | const => "CONSTANT" | var => "VARIABLE" | unary => "UNARY_OP"
  | binary => "BINARY_OP" | reduction => "REDUCTION"

/-- The name under which a node of this kind is described. -/
def title : Kind → String
  | const => "ConstantNode" | var => "VariableNode" | unary => "UnaryOpNode"
  | binary => "BinaryOpNode" | reduction => "ReductionNode"

/-- The number of a kind is its place in the list of all kinds. -/
def code (kind : Kind) : Nat :=
  all.idxOf kind

/-- The least number of arguments with which a node of this kind has a value. -/
def arity : Kind → Nat
  | const => 0 | var => 0 | unary => 1 | binary => 2 | reduction => 1

end Kind

/-- The family to which an operation belongs. -/
def Operation.kind : Operation → Kind
  | unary _ => .unary
  | binary _ => .binary
  | reduction _ => .reduction

end Formulary
