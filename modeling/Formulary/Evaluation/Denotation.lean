import Formulary.Evaluation.Basic

/-!
# The value of an expression

The value of an expression is defined here without any buffers: a row of samples
for each node, made of the rows of its children, index by index.

Main results:

- Definition `Expr.value?`: the value over given rows, or the failure.
- Theorem `Operation.length_pointwise`: the value of an operation on rows of one
  length has that length.
-/

namespace Formulary

variable {α : Type} [Scalar α]

/-- The samples that several rows have at an index. -/
def column (rows : List (List α)) (index : Nat) : List α :=
  rows.filterMap (·[index]?)

/-- The value of an operation, index by index.  A reduction of one row is the
reduction of its samples at every index; a reduction of several rows is, at each
index of the first, the reduction of the samples there. -/
def Operation.pointwise (operation : Operation) (rows : List (List α)) : List α :=
  match operation, rows with
  | .unary op, row :: _ => row.map (Scalar.unary op)
  | .binary op, left :: right :: _ =>
    (left.zip right).map fun (x, y) => Scalar.binary op x y
  | .reduction op, [first :: rest] =>
    (first :: rest).map fun _ => rest.foldl (Scalar.reduce op) first
  | .reduction op, first :: rest =>
    (List.range first.length).map fun index =>
      (column (first :: rest) index).foldl (Scalar.reduce op) (Scalar.start op)
  | _, _ => []

namespace Expr

/-- The value of a node from the values of its children. -/
def valueNode (rowOf : String → Option (List α)) (count : Int) (mark : Mark α)
    (children : List (Except EvalError (List α))) : Except EvalError (List α) := do
  mark.checkArity children.length
  match mark.label with
  | .const value => constantRow count value
  | .var name =>
    match rowOf name with
    | none => .error (.unbound name)
    | some row => .ok row
  | .op operation =>
    let rows ← inSequence (children.take (operation.used children.length))
    mark.checkLengths (rows.map List.length)
    return operation.pointwise rows

/-- The value of an expression whose variables have the rows given by `rowOf`
and whose constants are repeated `count` times. -/
def value? (rowOf : String → Option (List α)) (count : Int) (expr : Expr α) :
    Except EvalError (List α) :=
  Tree.fold (valueNode rowOf count) expr

@[simp]
theorem value?_node (rowOf : String → Option (List α)) (count : Int) (mark : Mark α)
    (children : List (Expr α)) :
    value? rowOf count (Tree.node mark children) =
      valueNode rowOf count mark (children.map (value? rowOf count)) :=
  Tree.fold_node _ mark children

/-- The value of an expression over samples. -/
def valueOn (samples : Samples α) (expr : Expr α) : Except EvalError (List α) :=
  expr.value? samples.rows.find? samples.count

end Expr

/-! ## Lengths of values -/

theorem length_pointwise_unary (op : UnaryOp) (row : List α) (more : List (List α)) :
    ((Operation.unary op).pointwise (row :: more)).length = row.length := by
  simp [Operation.pointwise]

/-- The value of an operation on rows of one length has that length. -/
theorem Operation.length_pointwise (operation : Operation) {rows : List (List α)} {count : Nat}
    (enough : operation.kind.arity ≤ rows.length) (h : ∀ row ∈ rows, row.length = count) :
    (operation.pointwise rows).length = count := by
  cases operation with
  | unary op =>
    match rows, enough with
    | row :: more, _ =>
      rw [length_pointwise_unary]
      exact h row List.mem_cons_self
  | binary op =>
    match rows, enough with
    | left :: right :: _, _ =>
      have hl := h left List.mem_cons_self
      have hr := h right (List.mem_cons_of_mem _ List.mem_cons_self)
      simp [pointwise, hl, hr]
  | reduction op =>
    match rows, enough with
    | [] :: rest, _ =>
      have := h [] List.mem_cons_self
      simpa [pointwise] using this
    | [first :: rest], _ =>
      have := h (first :: rest) List.mem_cons_self
      simpa [pointwise] using this
    | (first :: rest) :: second :: more, _ =>
      have := h (first :: rest) List.mem_cons_self
      simpa [pointwise] using this

end Formulary
