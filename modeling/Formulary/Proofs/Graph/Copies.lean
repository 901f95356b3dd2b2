import Mathlib.Data.List.Nodup
import Formulary.Proofs.Evaluation.Steps
import Formulary.Proofs.Graph.Sizes

/-!
# Copies of nodes

Copying a node adds nodes for the expression below it, a node for every way down, and
leaves out the children of constants and variables, which nothing looks at.  This module
shows that the copy is read as the node is, that it consists of new nodes only, and that
no node occurs in it twice, whatever was remembered in the graph.

Main results:

- Theorems `Expr.text_prune` and `Expr.evaluate_prune`: the children of constants and
  variables add nothing to a text or a value.
- Definition `Graph.Grafts`: expressions for which nodes were added.
- Theorem `Graph.exists_isCopy`: the copy of a node with an expression.
-/

namespace Formulary

/-! ## What is left out -/

namespace Expr

/-- The text of a constant or variable shows no children. -/
theorem renderNode_of_isLeaf {α : Type} (constant : α → String) {mark : Mark α}
    (leaf : mark.label.isLeaf = true) (parts others : List String) :
    renderNode constant mark parts = renderNode constant mark others := by
  rcases mark with ⟨_ | _ | _, id⟩
  · rfl
  · rfl
  · cases leaf

theorem render_prune {α : Type} (constant : α → String) (expr : Expr α) :
    render constant expr.prune = render constant expr := by
  induction expr using Tree.induct with
  | step mark children ih =>
    rw [prune_node, render_node, render_node]
    by_cases leaf : mark.label.isLeaf = true
    · exact renderNode_of_isLeaf constant leaf _ _
    · rw [if_neg leaf, List.map_map]
      exact congrArg (renderNode constant mark) (List.map_congr_left ih)

/-- An expression without the children of its constants and variables has the same
text. -/
theorem text_prune (expr : Expr Float) : expr.prune.text = expr.text :=
  render_prune _ expr

variable {α : Type} [Scalar α]

/-- The value of a constant or variable does not depend on children. -/
theorem evaluateNode_of_isLeaf (provider : Provider α) {mark : Mark α}
    (leaf : mark.label.isLeaf = true) (children others : List (EvalM α Buffer)) :
    evaluateNode provider mark children = evaluateNode provider mark others := by
  rw [evaluateNode, evaluateNode, Mark.checkArity_of_isLeaf leaf, Mark.checkArity_of_isLeaf leaf]
  cases label : mark.label with
  | const value => rfl
  | var name => rfl
  | op operation =>
    rw [label] at leaf
    cases leaf

/-- An expression without the children of its constants and variables has the same
value, and leaves the same behind. -/
theorem evaluate_prune (domain : Domain) (expr : Expr α) :
    expr.prune.evaluate domain = expr.evaluate domain := by
  induction expr using Tree.induct with
  | step mark children ih =>
    rw [prune_node, evaluate_node, evaluate_node]
    by_cases leaf : mark.label.isLeaf = true
    · exact evaluateNode_of_isLeaf domain.provider leaf _ _
    · rw [if_neg leaf, List.map_map]
      exact congrArg (evaluateNode domain.provider mark) (List.map_congr_left ih)

end Expr

namespace Unfolding

variable {α : Type}

theorem nodes_depthFirst_node (occurrence : Occurrence α) (children : List (Unfolding α)) :
    nodes .depthFirst (Tree.node occurrence children) =
      occurrence.node :: children.flatMap (nodes .depthFirst) := by
  rw [nodes, Tree.nodes, Tree.preorder_node, List.map_cons, List.map_flatMap]
  rfl

/-- Both orders list the same nodes equally often. -/
theorem nodes_perm (order other : Tree.Order) (tree : Unfolding α) :
    (tree.nodes order).Perm (tree.nodes other) :=
  ((Tree.nodes_perm order tree).trans (Tree.nodes_perm other tree).symm).map top

end Unfolding

namespace Graph

variable {α : Type} {graph before after : Graph α} {node : NodeRef} {tree : Unfolding α}

/-! ## Adding the nodes of expressions -/

/-- Nodes were added for expressions.  Each expression has an unfolding of its own, and no
node occurs twice in them. -/
structure Grafts (before after : Graph α) (exprs : List (Expr α))
    (trees : List (Unfolding α)) : Prop where
  grown : Extends before after
  unfolds : ∀ tree ∈ trees, after.IsUnfolding tree
  exprs_eq : trees.map Unfolding.expr = exprs
  fresh : ∀ node ∈ trees.flatMap (Unfolding.nodes .depthFirst),
    before.order ≤ node.index ∧ node.index < after.order
  distinct : (trees.flatMap (Unfolding.nodes .depthFirst)).Nodup

theorem grafts_nil (graph : Graph α) : Grafts graph graph [] [] where
  grown := .refl graph
  unfolds := fun _ member => by cases member
  exprs_eq := rfl
  fresh := fun _ member => by cases member
  distinct := .nil

/-- The nodes of further expressions are added behind those of the first. -/
theorem Grafts.cons {middle : Graph α} {expr : Expr α} {exprs : List (Expr α)}
    {trees : List (Unfolding α)} (first : Grafts before middle [expr] [tree])
    (rest : Grafts middle after exprs trees) :
    Grafts before after (expr :: exprs) (tree :: trees) where
  grown := first.grown.trans rest.grown
  unfolds := by
    intro other member
    rcases List.mem_cons.1 member with rfl | member
    · exact rest.grown.isUnfolding (first.unfolds other (List.mem_singleton.2 rfl))
    · exact rest.unfolds other member
  exprs_eq := by
    rw [List.map_cons, rest.exprs_eq]
    exact congrArg (· :: exprs) (List.head_eq_of_cons_eq first.exprs_eq)
  fresh := by
    have own := first.fresh
    rw [List.flatMap_singleton] at own
    intro node member
    rw [List.flatMap_cons, List.mem_append] at member
    rcases member with member | member
    · exact ⟨(own node member).1, Nat.lt_of_lt_of_le (own node member).2 rest.grown.order_le⟩
    · exact ⟨Nat.le_trans first.grown.order_le (rest.fresh node member).1,
        (rest.fresh node member).2⟩
  distinct := by
    have own := first.fresh
    have distinct := first.distinct
    rw [List.flatMap_singleton] at own distinct
    rw [List.flatMap_cons]
    refine distinct.append rest.distinct ?_
    intro node member also
    exact Nat.lt_irrefl _ (Nat.lt_of_lt_of_le (own node member).2 (rest.fresh node also).1)

/-- A node is added behind the nodes of its children. -/
theorem Grafts.parent {exprs : List (Expr α)} {trees : List (Unfolding α)}
    (below : Grafts before after exprs trees) (mark : Mark α) :
    Grafts before (after.insert mark (trees.map Unfolding.top)).2 [Tree.node mark exprs]
      [Tree.node ⟨(after.insert mark (trees.map Unfolding.top)).1, mark⟩ trees] where
  grown := below.grown.trans (extends_insert _ _ _)
  unfolds := by
    intro tree member
    obtain rfl := List.mem_singleton.1 member
    refine isUnfolding_node_iff.2 ⟨⟨none, vertex?_insert_self _ _ _⟩, fun child member => ?_⟩
    exact (extends_insert _ _ _).isUnfolding (below.unfolds child member)
  exprs_eq := by
    rw [List.map_singleton, Unfolding.expr_node, below.exprs_eq]
  fresh := by
    rw [List.flatMap_singleton, Unfolding.nodes_depthFirst_node, order_insert]
    intro node member
    rcases List.mem_cons.1 member with rfl | member
    · exact ⟨below.grown.order_le, Nat.lt_succ_self _⟩
    · exact ⟨(below.fresh node member).1, Nat.lt_succ_of_lt (below.fresh node member).2⟩
  distinct := by
    rw [List.flatMap_singleton, Unfolding.nodes_depthFirst_node, List.nodup_cons]
    exact ⟨fun member => Nat.lt_irrefl _ (below.fresh _ member).2, below.distinct⟩

/-- Nodes are added for the expressions of a list, if they are for each of them. -/
theorem exists_grafts_graftEach {exprs : List (Expr α)}
    (each : ∀ expr ∈ exprs, ∀ graph : Graph α, ∃ tree : Unfolding α,
      (graph.graft expr).1 = tree.top ∧ Grafts graph (graph.graft expr).2 [expr] [tree])
    (graph : Graph α) :
    ∃ trees : List (Unfolding α), (graph.graftEach exprs).1 = trees.map Unfolding.top ∧
      Grafts graph (graph.graftEach exprs).2 exprs trees := by
  induction exprs generalizing graph with
  | nil => exact ⟨[], rfl, grafts_nil graph⟩
  | cons expr rest ih =>
    obtain ⟨tree, top, first⟩ := each expr List.mem_cons_self graph
    obtain ⟨trees, tops, others⟩ := ih
      (fun other member => each other (List.mem_cons_of_mem _ member)) (graph.graft expr).2
    refine ⟨tree :: trees, ?_, first.cons others⟩
    rw [graftEach, List.map_cons, ← top, ← tops]

/-- Nodes are added for an expression. -/
theorem exists_grafts_graft (expr : Expr α) (graph : Graph α) :
    ∃ tree : Unfolding α, (graph.graft expr).1 = tree.top ∧
      Grafts graph (graph.graft expr).2 [expr] [tree] := by
  induction expr using Tree.induct generalizing graph with
  | step mark children ih =>
    obtain ⟨trees, tops, below⟩ := exists_grafts_graftEach ih graph
    have added : graph.graft (Tree.node mark children) =
        (graph.graftEach children).2.insert mark (trees.map Unfolding.top) := by
      rw [graft, ← tops]
    rw [added]
    exact ⟨_, rfl, below.parent mark⟩

/-- Copying a node only adds nodes, and they remember nothing. -/
theorem extends_of_copy? {root : NodeRef} (copied : before.copy? node = some (root, after)) :
    Extends before after := by
  obtain ⟨expr, -, added⟩ := Option.map_eq_some_iff.1 copied
  obtain ⟨tree, -, grafts⟩ := exists_grafts_graft expr before
  rw [added] at grafts
  exact grafts.grown

/-! ## Copies -/

/-- A node was copied.  The copy is the expression below the node without the children of
constants and variables.  It is made of new nodes, of which none occurs twice; the old
ones are as they were.  It has the text and the value of the node, and its size is the
number of its nodes. -/
structure IsCopy (before after : Graph Float) (node root : NodeRef) (expr : Expr Float)
    (copies : List NodeRef) : Prop where
  original : before.expr? node = some expr
  copied : after.expr? root = some expr.prune
  nodes : after.nodes? .depthFirst root = some copies
  levels : ∃ listed, after.nodes? .breadthFirst root = some listed ∧ listed.Perm copies
  distinct : copies.Nodup
  fresh : ∀ copy ∈ copies, before.order ≤ copy.index
  old : ∀ old : NodeRef, old.index < before.order → after.vertex? old = before.vertex? old
  text : before.text? node = some expr.text ∧ after.text? root = some expr.text
  evaluation : ∀ domain, before.evaluate domain node = expr.evaluate domain ∧
    after.evaluate domain root = expr.evaluate domain
  size : ∃ counted, after.size? root = some (copies.length, counted)

/-- A node from which every way down ends is copied, whatever nodes remember. -/
theorem exists_isCopy {graph : Graph Float} (ends : graph.Ends node) :
    ∃ expr root after copies, graph.copy? node = some (root, after) ∧
      IsCopy graph after node root expr copies := by
  obtain ⟨tree, rfl, unfolds⟩ := ends.exists_isUnfolding
  have original := unfolds.expr?
  obtain ⟨copy, top, grafts⟩ := exists_grafts_graft tree.expr.prune graph
  have unfolds_copy := grafts.unfolds copy (List.mem_singleton.2 rfl)
  have copied : (graph.graft tree.expr.prune).2.expr? copy.top = some tree.expr.prune := by
    rw [unfolds_copy.expr?, List.head_eq_of_cons_eq grafts.exprs_eq]
  have fresh := grafts.fresh
  have distinct := grafts.distinct
  rw [List.flatMap_singleton] at fresh distinct
  have exact : (graph.graft tree.expr.prune).2.Exact (· ∈ copy.nodes .depthFirst) :=
    exact_of_not_kept (unfolds_copy.isClosed _) fun node member =>
      grafts.grown.new node (fresh node member).1
  have inside : copy.top ∈ copy.nodes .depthFirst :=
    Unfolding.mem_nodes_iff.2 ⟨copy, Tree.self_mem_preorder copy, rfl⟩
  obtain ⟨counted, sized, -⟩ := exact.size?_eq unfolds_copy inside
  refine ⟨tree.expr, copy.top, (graph.graft tree.expr.prune).2, copy.nodes .depthFirst, ?_,
    ?_⟩
  · rw [copy?_of_expr? original, ← top]
  · exact
      { original := original
        copied := copied
        nodes := unfolds_copy.nodes? _
        levels := ⟨_, unfolds_copy.nodes? _, Unfolding.nodes_perm _ _ copy⟩
        distinct := distinct
        fresh := fun node member => (fresh node member).1
        old := grafts.grown.old
        text := ⟨text?_of_expr? original, by rw [text?_of_expr? copied, Expr.text_prune]⟩
        evaluation := fun domain => ⟨evaluate_of_expr? original domain, by
          rw [evaluate_of_expr? copied, Expr.evaluate_prune]⟩
        size := ⟨counted, by rw [sized, Unfolding.length_nodes]⟩ }

end Graph

end Formulary
