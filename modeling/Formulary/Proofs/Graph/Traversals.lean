import Formulary.Proofs.Graph.Unfoldings
import Formulary.Proofs.Tree.Levels
import Mathlib.Logic.Function.Iterate

/-!
# Traversals of nodes

A traversal in level order keeps a queue of nodes.  Where every way down ends, the queue
gets empty, and what was listed by then are the nodes that the depth-first traversal lists,
put in order by their depths.  A node that can be reached in several ways is listed once
for each of them.

Main results:

- Definition `Graph.Search.next`: one node is taken from the queue.
- Theorem `Graph.iterate_next`: the queue gets empty when all occurrences are listed.
- Definition `Graph.places?`: the depth-first traversal with the depths of the nodes.
- Theorem `Graph.traversals_of_ends`: both traversals, level by level, and what is looked
  up by them.
-/

namespace Formulary

namespace Unfolding

variable {α : Type}

/-- The nodes in preorder with their depths. -/
def places (tree : Unfolding α) : List (Nat × NodeRef) :=
  (Tree.placed 0 tree).map fun place => (place.1, top place.2)

theorem map_snd_places (tree : Unfolding α) :
    tree.places.map Prod.snd = tree.nodes .depthFirst := by
  rw [nodes, Tree.nodes, ← Tree.map_snd_placed 0 tree, places, List.map_map, List.map_map]
  rfl

/-- The nodes at a depth are those of a level. -/
theorem atDepth_places (depth : Nat) (tree : Unfolding α) :
    Tree.atDepth depth tree.places = (Tree.level depth tree).map top := by
  have placed := Tree.atDepth_placed 0 depth tree
  rw [Nat.zero_add] at placed
  rw [← placed, places, Tree.atDepth, Tree.atDepth, List.filter_map, List.map_map, List.map_map]
  rfl

/-- Level order lists the nodes at one depth after those at another. -/
theorem nodes_breadthFirst (tree : Unfolding α) :
    tree.nodes .breadthFirst =
      (List.range tree.expr.depth).flatMap fun depth => Tree.atDepth depth tree.places := by
  rw [nodes, Tree.nodes, Tree.levelOrder_eq_levels, List.map_flatMap, expr, Tree.depth_map]
  simp only [atDepth_places]

theorem atDepth_places_ne_nil_iff {depth : Nat} {tree : Unfolding α} :
    Tree.atDepth depth tree.places ≠ [] ↔ depth < tree.expr.depth := by
  rw [atDepth_places, expr, Tree.depth_map, ← Tree.level_ne_nil_iff, ne_eq, List.map_eq_nil_iff]

end Unfolding

namespace Graph

variable {α : Type} {graph : Graph α} {node : NodeRef} {tree : Unfolding α}

/-! ## The queue -/

/-- The nodes that wait, and those that are listed already. -/
structure Search where
  queue : List NodeRef
  listed : List NodeRef

/-- The first node that waits is listed, and its children wait behind the others. -/
def Search.next (graph : Graph α) (search : Search) : Search :=
  match search.queue with
  | [] => search
  | node :: rest => ⟨rest ++ graph.children node, search.listed ++ [node]⟩

/-- The queue gets empty when all that occurs below its nodes is listed. -/
theorem iterate_next {queue : List (Unfolding α)}
    (unfolds : ∀ tree ∈ queue, graph.IsUnfolding tree) (listed : List NodeRef) :
    (Search.next graph)^[(Tree.visit queue).length] ⟨queue.map Unfolding.top, listed⟩ =
      ⟨[], listed ++ (Tree.visit queue).map Unfolding.top⟩ := by
  fun_induction Tree.visit queue generalizing listed with
  | case1 => rw [List.map_nil, List.append_nil]; rfl
  | case2 tree queue ih =>
    have own := unfolds tree List.mem_cons_self
    have shown := (own tree (Tree.self_mem_preorder tree)).children_eq
    have taken : Search.next graph ⟨(tree :: queue).map Unfolding.top, listed⟩ =
        ⟨(queue ++ tree.children).map Unfolding.top, listed ++ [Unfolding.top tree]⟩ := by
      rw [Search.next, List.map_cons, List.map_append, ← shown]
    have others : ∀ other ∈ queue ++ tree.children, graph.IsUnfolding other := by
      intro other member
      rcases List.mem_append.1 member with waiting | below
      · exact unfolds other (List.mem_cons_of_mem _ waiting)
      · exact own.inner (Tree.mem_preorder_of_mem_children below)
    rw [List.length_cons, Function.iterate_succ_apply, taken, ih others, List.map_cons,
      List.append_assoc, List.singleton_append]

/-! ## Depths -/

/-- The nodes below a node in preorder with their depths; there are none above a cycle. -/
def places? (graph : Graph α) (node : NodeRef) : Option (List (Nat × NodeRef)) :=
  (graph.unfolding? node).map Unfolding.places

/-! ## Expressions of the nodes that are listed -/

/-- The label of a node passes a test. -/
def bears (graph : Graph α) (test : Label α → Bool) (node : NodeRef) : Bool :=
  match graph.vertex? node with
  | none => false
  | some vertex => test vertex.mark.label

theorem IsUnfolding.bears_top (unfolds : graph.IsUnfolding tree) {inner : Unfolding α}
    (member : inner ∈ tree.preorder) (test : Label α → Bool) :
    graph.bears test inner.top = test inner.value.mark.label := by
  obtain ⟨size, found⟩ := unfolds inner member
  rw [bears, found]

/-- The nodes whose labels pass a test are those at which the expression has such labels, in
the same order. -/
theorem IsUnfolding.filter_nodes (unfolds : graph.IsUnfolding tree) (order : Tree.Order)
    (test : Label α → Bool) :
    ((tree.nodes order).filter (graph.bears test)).map graph.expr? =
      ((Tree.nodes order tree.expr).filter fun inner => test inner.value.label).map some := by
  have listed : ∀ inner ∈ Tree.nodes order tree, inner ∈ tree.preorder :=
    fun inner => (Tree.nodes_perm order tree).mem_iff.1
  have tests : (Tree.nodes order tree).filter (graph.bears test ∘ Unfolding.top) =
      (Tree.nodes order tree).filter
        ((fun inner => test inner.value.label) ∘ Tree.map Occurrence.mark) := by
    refine List.filter_congr fun inner member => ?_
    rw [Function.comp_apply, Function.comp_apply, unfolds.bears_top (listed inner member),
      Tree.value_map]
  rw [Unfolding.nodes, Unfolding.expr, Tree.nodes_map, List.filter_map, List.filter_map, tests,
    List.map_map, List.map_map]
  refine List.map_congr_left fun inner member => ?_
  exact (unfolds.inner (listed inner (List.mem_of_mem_filter member))).expr?

/-- The expressions below the nodes that are listed are those that the traversal of the
expression lists. -/
theorem IsUnfolding.map_expr?_nodes (unfolds : graph.IsUnfolding tree) (order : Tree.Order) :
    (tree.nodes order).map graph.expr? = (Tree.nodes order tree.expr).map some := by
  rw [Unfolding.nodes, Unfolding.expr, Tree.nodes_map, List.map_map, List.map_map]
  refine List.map_congr_left fun inner member => ?_
  exact (unfolds.inner ((Tree.nodes_perm order tree).mem_iff.1 member)).expr?

/-! ## Both traversals -/

/-- From a node where every way down ends, the queue of level order gets empty.  It lists
the nodes depth by depth, as many depths as the expression has levels, and at each depth in
the order in which the depth-first traversal comes to them; so both list the same nodes
equally often.  Below these nodes are the expressions that the traversals of the whole
expression list.  Looking up a class or a symbol gives those of them that have it, in the
same order; operations have a symbol and nothing else has. -/
theorem traversals_of_ends (ends : graph.Ends node) :
    ∃ expr broad places,
      graph.expr? node = some expr ∧ graph.places? node = some places ∧
      graph.nodes? .depthFirst node = some (places.map Prod.snd) ∧
      graph.nodes? .breadthFirst node = some broad ∧
      (Search.next graph)^[broad.length] ⟨[node], []⟩ = ⟨[], broad⟩ ∧
      broad = (List.range expr.depth).flatMap (fun depth => Tree.atDepth depth places) ∧
      (∀ depth, Tree.atDepth depth places ≠ [] ↔ depth < expr.depth) ∧
      broad.Perm (places.map Prod.snd) ∧
      broad.map graph.expr? = expr.levelOrder.map some ∧
      places.map (fun place => graph.expr? place.2) = expr.preorder.map some ∧
      (∀ nodeClass : NodeClass,
        (broad.filter (graph.bears (nodeClass.includes ·.kind))).map graph.expr? =
          (expr.nodesOfClass nodeClass).map some) ∧
      (∀ symbol, (broad.filter (graph.bears (·.symbol? == some symbol))).map graph.expr? =
        (expr.nodesWithSymbol symbol).map some) ∧
      ∀ (label : Label α) (symbol : String), label.symbol? = some symbol ↔
        ∃ operation, label = .op operation ∧ operation.symbol = symbol := by
  obtain ⟨tree, rfl, unfolds⟩ := ends.exists_isUnfolding
  have places : graph.places? tree.top = some tree.places := by
    rw [places?, unfolds.unfolding?, Option.map_some]
  have deep : graph.nodes? .depthFirst tree.top = some (tree.places.map Prod.snd) := by
    rw [unfolds.nodes?, Unfolding.map_snd_places]
  have ended : (Search.next graph)^[(tree.nodes .breadthFirst).length] ⟨[tree.top], []⟩ =
      ⟨[], tree.nodes .breadthFirst⟩ := by
    have each : ∀ other ∈ [tree], graph.IsUnfolding other := by
      intro other member
      rw [List.eq_of_mem_singleton member]
      exact unfolds
    rw [Unfolding.nodes, Tree.nodes, List.length_map, Tree.levelOrder_eq_visit]
    exact iterate_next each []
  have perm : (tree.nodes .breadthFirst).Perm (tree.places.map Prod.snd) := by
    rw [Unfolding.map_snd_places]
    exact (Tree.levelOrder_perm tree).map Unfolding.top
  have exprs : tree.places.map (fun place => graph.expr? place.2) =
      (Tree.preorder tree.expr).map some := by
    have listed := unfolds.map_expr?_nodes .depthFirst
    rw [← Unfolding.map_snd_places, List.map_map] at listed
    exact listed
  exact ⟨tree.expr, tree.nodes .breadthFirst, tree.places, unfolds.expr?, places, deep,
    unfolds.nodes? .breadthFirst, ended, Unfolding.nodes_breadthFirst tree,
    fun _ => Unfolding.atDepth_places_ne_nil_iff, perm, unfolds.map_expr?_nodes .breadthFirst,
    exprs,
    fun nodeClass => unfolds.filter_nodes .breadthFirst (nodeClass.includes ·.kind),
    fun symbol => unfolds.filter_nodes .breadthFirst (·.symbol? == some symbol),
    fun _ _ => Label.symbol?_eq_some_iff⟩

/-- The greatest of the exponential of `x` and of the product of `x` with itself, where `x`
is one node. -/
def sharedVariable : Graph Float :=
  ⟨#[⟨⟨.var "x", none⟩, [], none⟩, ⟨⟨.op (.unary .exp), none⟩, [⟨0⟩], none⟩,
    ⟨⟨.op (.binary .mul), none⟩, [⟨0⟩, ⟨0⟩], none⟩,
    ⟨⟨.op (.reduction .max), none⟩, [⟨1⟩, ⟨2⟩], none⟩]⟩

/-- The variable is listed three times, and found three times among the variables.  The
product is found by its symbol. -/
theorem traversals_of_ends_sharedVariable :
    sharedVariable.Ends ⟨3⟩ ∧
      sharedVariable.nodes? .depthFirst ⟨3⟩ = some [⟨3⟩, ⟨1⟩, ⟨0⟩, ⟨2⟩, ⟨0⟩, ⟨0⟩] ∧
      sharedVariable.nodes? .breadthFirst ⟨3⟩ = some [⟨3⟩, ⟨1⟩, ⟨2⟩, ⟨0⟩, ⟨0⟩, ⟨0⟩] ∧
      ∃ expr, sharedVariable.expr? ⟨3⟩ = some expr ∧
        (expr.nodesOfClass .node).map some =
          [⟨3⟩, ⟨1⟩, ⟨2⟩, ⟨0⟩, ⟨0⟩, ⟨0⟩].map sharedVariable.expr? ∧
        (expr.nodesOfClass (.kind .var)).map some =
          [⟨0⟩, ⟨0⟩, ⟨0⟩].map sharedVariable.expr? ∧
        (expr.nodesWithSymbol "*").map some = [⟨2⟩].map sharedVariable.expr? := by
  have ends : sharedVariable.Ends ⟨3⟩ := acyclic_of_descends (by decide) ⟨3⟩ (by decide)
  obtain ⟨expr, broad, places, unfolded, placed, deep, listed, -, levels, -, -, -, -, classes,
    symbols, -⟩ := traversals_of_ends ends
  have known : sharedVariable.places? ⟨3⟩ =
      some [(0, ⟨3⟩), (1, ⟨1⟩), (2, ⟨0⟩), (1, ⟨2⟩), (2, ⟨0⟩), (2, ⟨0⟩)] := rfl
  have depth : (sharedVariable.expr? ⟨3⟩).map Tree.depth = some 3 := rfl
  obtain rfl := Option.some.inj (placed.symm.trans known)
  rw [unfolded, Option.map_some, Option.some.injEq] at depth
  rw [depth] at levels
  subst levels
  exact ⟨ends, deep, listed, expr, unfolded, (classes .node).symm,
    (classes (.kind .var)).symm, (symbols "*").symm⟩

end Graph

end Formulary
