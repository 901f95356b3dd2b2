import Formulary.Evaluation.Basic
import Formulary.Expr.Text
import Formulary.Graph.Unfolding

/-!
# Texts and values of nodes

A node of a graph has a text and a value.  Each is read off the part of the graph
that it needs; nothing else has to have an end.  Evaluation needs no more than
what comes before its first failure.

Main results:

- Theorem `Graph.text?_of_expr?`: the text of a node is that of its expression.
- Theorem `Graph.evaluate_of_expr?`: the value of a node is that of its
  expression.
-/

namespace Formulary.Graph

/-! ## Texts -/

/-- The text of a node. -/
def text? (graph : Graph Float) (node : NodeRef) : Option String :=
  (graph.part? Label.shown node).map Expr.text

/-- The description of a node. -/
def description? (graph : Graph Float) (node : NodeRef) : Option String :=
  (graph.part? Label.shown node).map Expr.description

/-- The text of a node is that of its expression. -/
theorem text?_of_expr? {graph : Graph Float} {node : NodeRef} {expr : Expr Float}
    (h : graph.expr? node = some expr) : graph.text? node = some expr.text := by
  rw [text?, part?_of_expr? h, Option.map_some]
  exact congrArg some (Expr.render_part_shown _ expr)

/-! ## Values -/

variable {α : Type} [Scalar α]

/-- Evaluates a node, if every way down that is taken has at most `fuel` nodes. -/
def evaluateWithin (graph : Graph α) (domain : Domain) : Nat → NodeRef → EvalM α Buffer
  | 0, _ => throw .endless
  | fuel + 1, node =>
    match graph.vertex? node with
    | none => throw .endless
    | some vertex =>
      Expr.evaluateNode domain.provider vertex.mark
        (vertex.children.map (graph.evaluateWithin domain fuel))

/-- Evaluates a node.  A way down with more nodes than the graph goes around a
cycle and has no end. -/
def evaluate (graph : Graph α) (domain : Domain) (node : NodeRef) : EvalM α Buffer :=
  graph.evaluateWithin domain graph.order node

/-- The value of a node is that of its expression, if that has an end. -/
theorem evaluateWithin_of_exprWithin (graph : Graph α) (domain : Domain) {fuel : Nat}
    {node : NodeRef} {expr : Expr α}
    (h : graph.partWithin (fun _ count => count) fuel node = some expr) :
    graph.evaluateWithin domain fuel node = expr.evaluate domain := by
  induction fuel generalizing node expr with
  | zero => cases h
  | succ fuel ih =>
    obtain ⟨vertex, children, found, rfl, below⟩ := exprWithin_succ h
    have values : vertex.children.map (graph.evaluateWithin domain fuel) =
        children.map (Expr.evaluate domain) :=
      map_eq_of_results below fun _ _ => ih
    simp only [evaluateWithin, found, Expr.evaluate_node, values]

/-- The value of a node is that of its expression. -/
theorem evaluate_of_expr? {graph : Graph α} {node : NodeRef} {expr : Expr α}
    (h : graph.expr? node = some expr) (domain : Domain) :
    graph.evaluate domain node = expr.evaluate domain :=
  evaluateWithin_of_exprWithin graph domain h

end Formulary.Graph
