import Formulary.Bindings
import Formulary.Expr.Basic
import Formulary.Scalar
import Formulary.Tree.Traversal

/-!
# Nodes of an expression

This module looks up nodes by class and by operator, collects the variables of an
expression, and checks its shape.

Main results:

- Theorem `Expr.arityViolations_eq_nil_iff`: there are no violations exactly when
  every node has a number of children that its kind admits.
- Theorem `Expr.isValid_iff`: an expression is valid when there are no violations
  and its constants are finite.
-/

namespace Formulary

/-- The numbers of children that a kind of node admits: none for constants and
variables, one and two for functions, and at least one for reductions. -/
def Kind.admits (kind : Kind) (count : Nat) : Bool :=
  match kind with
  | .reduction => kind.arity ≤ count
  | _ => count == kind.arity

/-- A class of nodes: all of them, or those of one kind. -/
inductive NodeClass
  | node
  | kind (kind : Kind)
deriving DecidableEq, Repr

/-- The kinds of which a class has the nodes. -/
def NodeClass.includes : NodeClass → Kind → Bool
  | node, _ => true
  | kind own, other => other == own

namespace Expr

variable {α : Type}

/-! ## Looking up nodes -/

/-- The nodes of a given class in level order. -/
def nodesOfClass (nodeClass : NodeClass) (expr : Expr α) : List (Expr α) :=
  expr.levelOrder.filter (nodeClass.includes ·.value.label.kind)

/-- The operations with a given symbol in level order. -/
def nodesWithSymbol (symbol : String) (expr : Expr α) : List (Expr α) :=
  expr.levelOrder.filter (·.value.label.symbol? == some symbol)

/-- The names of the variables, sorted and each once. -/
def variableNames (expr : Expr α) : List String :=
  sortedNames (expr.levelOrder.filterMap (·.value.label.varName?))

/-! ## Shape -/

/-- A node is well-formed when its kind admits the number of its children. -/
def hasAdmittedArity (expr : Expr α) : Bool :=
  expr.value.label.kind.admits expr.children.length

/-- The identifiers, which may be absent, of the nodes with a number of children
that their kind does not admit, in preorder. -/
def arityViolations (expr : Expr α) : List (Option NodeId) :=
  (expr.preorder.filter (!hasAdmittedArity ·)).map (·.value.id)

/-- A constant has to be finite. -/
def hasFiniteValue [Scalar α] (expr : Expr α) : Bool :=
  match expr.value.label with
  | .const value => Scalar.isFinite value
  | _ => true

/-- An expression is valid when every node has a number of children that its
kind admits and every constant is finite. -/
def isValid [Scalar α] (expr : Expr α) : Bool :=
  expr.arityViolations.isEmpty && expr.levelOrder.all hasFiniteValue

/-- There are no violations exactly when every node has an admitted number of
children. -/
theorem arityViolations_eq_nil_iff {expr : Expr α} :
    expr.arityViolations = [] ↔ ∀ node ∈ expr.preorder, hasAdmittedArity node = true := by
  simp [arityViolations, List.filter_eq_nil_iff]

theorem isValid_iff [Scalar α] {expr : Expr α} :
    expr.isValid = true ↔
      (∀ node ∈ expr.preorder, hasAdmittedArity node = true) ∧
        ∀ node ∈ expr.levelOrder, hasFiniteValue node = true := by
  rw [isValid, Bool.and_eq_true, List.isEmpty_iff, arityViolations_eq_nil_iff, List.all_eq_true]

end Expr

end Formulary
