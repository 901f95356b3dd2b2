import Formulary.Graph.Basic

/-!
# Expressions below nodes

Below each node of a graph without cycles hangs one expression, in which a node
occurs once for every way down to it.  Where only a part of an expression is
looked at, only that part has to end: a cycle or a large expression does no harm
among children that nobody looks at.

Main results:

- Definition `Graph.expr?`: the expression below a node.
- Theorem `Graph.part?_of_expr?`: the part that is unfolded is the part of the
  expression.
- Definition `Graph.copy?`: new nodes for the expression below a node.
-/

namespace Formulary.Graph

variable {α : Type}

/-! ## Unfolding -/

/-- The part of the expression below a node that `reach` looks at, if every way
down in it has at most `fuel` nodes. -/
def partWithin (graph : Graph α) (reach : Label α → Nat → Nat) : Nat → NodeRef → Option (Expr α)
  | 0, _ => none
  | fuel + 1, node => do
    let vertex ← graph.vertex? node
    let count := reach vertex.mark.label vertex.children.length
    let children ← (vertex.children.take count).mapM (graph.partWithin reach fuel)
    return .node vertex.mark children

/-- The part of the expression below a node that `reach` looks at.  There is none
if it holds a cycle; else no way down has more nodes than the graph. -/
def part? (graph : Graph α) (reach : Label α → Nat → Nat) (node : NodeRef) : Option (Expr α) :=
  graph.partWithin reach graph.order node

/-- The whole expression below a node; there is none above a cycle. -/
def expr? (graph : Graph α) (node : NodeRef) : Option (Expr α) :=
  graph.part? (fun _ count => count) node

/-! ## Copying -/

mutual

/-- Adds the nodes of an expression, children first. -/
def graft (graph : Graph α) : Expr α → NodeRef × Graph α
  | .node mark children =>
    let (children, graph) := graftEach graph children
    graph.insert mark children

/-- Adds the nodes of several expressions. -/
def graftEach (graph : Graph α) : List (Expr α) → List NodeRef × Graph α
  | [] => ([], graph)
  | expr :: rest =>
    let (node, graph) := graft graph expr
    let (nodes, graph) := graftEach graph rest
    (node :: nodes, graph)

end

/-- Adds new nodes for the expression below a node.  Constants and variables are
copied without their children. -/
def copy? (graph : Graph α) (node : NodeRef) : Option (NodeRef × Graph α) :=
  (graph.part? Label.kept node).map graph.graft

/-! ## Parts of the whole expression -/

/-- Results for all items are found together exactly when one is found for
each. -/
theorem mapM_eq_some_iff {β γ : Type} {f : β → Option γ} {items : List β} {results : List γ} :
    items.mapM f = some results ↔ items.map f = results.map some := by
  induction items generalizing results with
  | nil => cases results <;> simp
  | cons item rest ih =>
    cases results with
    | nil => simp [List.mapM_cons, Option.bind_eq_some_iff]
    | cons first others => simp [List.mapM_cons, ih, Option.bind_eq_some_iff]

/-- What follows from each result follows for all of them in order. -/
theorem map_eq_of_results {β γ δ : Type} {f : β → Option γ} {g : β → δ} {h : γ → δ}
    {items : List β} {results : List γ} (found : items.map f = results.map some)
    (follows : ∀ item result, f item = some result → g item = h result) :
    items.map g = results.map h := by
  induction items generalizing results with
  | nil => cases results <;> simp_all
  | cons item rest ih =>
    cases results with
    | nil => simp at found
    | cons first others =>
      simp only [List.map_cons, List.cons.injEq] at found ⊢
      exact ⟨follows item first found.1, ih found.2⟩

/-- Below a node with an expression hang the expressions of its children. -/
theorem exprWithin_succ {graph : Graph α} {fuel : Nat} {node : NodeRef} {expr : Expr α}
    (h : graph.partWithin (fun _ count => count) (fuel + 1) node = some expr) :
    ∃ vertex children, graph.vertex? node = some vertex ∧ expr = .node vertex.mark children ∧
      vertex.children.map (graph.partWithin (fun _ count => count) fuel) =
        children.map some := by
  simp only [partWithin, List.take_length, Option.bind_eq_bind, Option.bind_eq_some_iff] at h
  obtain ⟨vertex, found, children, below, whole⟩ := h
  exact ⟨vertex, children, found, (Option.some.inj whole).symm, mapM_eq_some_iff.1 below⟩

/-- The part that is unfolded is the part of the expression, if it has an end. -/
theorem partWithin_of_exprWithin (graph : Graph α) (reach : Label α → Nat → Nat) {fuel : Nat}
    {node : NodeRef} {expr : Expr α}
    (h : graph.partWithin (fun _ count => count) fuel node = some expr) :
    graph.partWithin reach fuel node = some (expr.part reach) := by
  induction fuel generalizing node expr with
  | zero => cases h
  | succ fuel ih =>
    obtain ⟨vertex, children, found, rfl, below⟩ := exprWithin_succ h
    have parts : vertex.children.map (graph.partWithin reach fuel) =
        (children.map (Expr.part reach)).map some := by
      rw [List.map_map]
      exact map_eq_of_results below fun _ _ => ih
    have same : vertex.children.length = children.length := by
      simpa using congrArg List.length below
    have taken : (vertex.children.take (reach vertex.mark.label children.length)).mapM
        (graph.partWithin reach fuel) =
          some ((children.map (Expr.part reach)).take
            (reach vertex.mark.label children.length)) := by
      rw [mapM_eq_some_iff, List.map_take, parts, ← List.map_take]
    simp only [partWithin, found, same, Option.bind_eq_bind, Option.bind_some, taken,
      Expr.part_node]
    rfl

/-- The part that is unfolded is the part of the whole expression. -/
theorem part?_of_expr? {graph : Graph α} {node : NodeRef} {expr : Expr α}
    (h : graph.expr? node = some expr) (reach : Label α → Nat → Nat) :
    graph.part? reach node = some (expr.part reach) :=
  partWithin_of_exprWithin graph reach h

/-- A copy consists of new nodes for the expression without the children of
constants and variables. -/
theorem copy?_of_expr? {graph : Graph α} {node : NodeRef} {expr : Expr α}
    (h : graph.expr? node = some expr) : graph.copy? node = some (graph.graft expr.prune) := by
  rw [copy?, part?_of_expr? h]
  rfl

end Formulary.Graph
