import Formulary.Graph.Reading
import Formulary.Proofs.Graph.Ends
import Formulary.Proofs.Tree.Orders

/-!
# Unfolded nodes

A node is met once for every way that leads down to it.  Unfolding a node gives the
tree of all these occurrences.  The expression below the node, its text, its value and
the nodes that a traversal lists are read off this tree, so they depend on nothing but
the marks and children of the nodes that can be reached.

Main results:

- Definition `Graph.unfolding?`: the tree of the occurrences below a node.
- Theorem `Graph.unfolding?_eq_some_iff`: it is the one tree that shows what the graph
  shows.
- Theorem `Graph.IsUnfolding.nodes?`: a traversal lists the nodes of the unfolding.
- Theorem `Graph.SameReadings.of_keeps`: nothing is read differently below a node if
  the nodes of a side that no way leaves keep their marks and children.
-/

namespace Formulary

/-! ## Occurrences -/

/-- A node at the end of a way down, and its mark. -/
structure Occurrence (α : Type) where
  node : NodeRef
  mark : Mark α

/-- The occurrences below a node. -/
abbrev Unfolding (α : Type) := Tree (Occurrence α)

namespace Unfolding

variable {α : Type}

/-- The node that is unfolded. -/
def top (tree : Unfolding α) : NodeRef := tree.value.node

/-- The expression that is made of the marks. -/
def expr (tree : Unfolding α) : Expr α := Tree.map Occurrence.mark tree

/-- The nodes in a given order, each as often as it occurs. -/
def nodes (order : Tree.Order) (tree : Unfolding α) : List NodeRef :=
  (Tree.nodes order tree).map top

@[simp]
theorem top_node (occurrence : Occurrence α) (children : List (Unfolding α)) :
    top (Tree.node occurrence children) = occurrence.node :=
  rfl

@[simp]
theorem expr_node (occurrence : Occurrence α) (children : List (Unfolding α)) :
    expr (Tree.node occurrence children) = Tree.node occurrence.mark (children.map expr) :=
  Tree.map_node _ occurrence children

/-- Every occurrence is listed. -/
@[simp]
theorem length_nodes (order : Tree.Order) (tree : Unfolding α) :
    (tree.nodes order).length = tree.size := by
  rw [nodes, List.length_map, Tree.length_nodes]

theorem mem_nodes_iff {order : Tree.Order} {tree : Unfolding α} {node : NodeRef} :
    node ∈ tree.nodes order ↔ ∃ inner ∈ tree.preorder, top inner = node := by
  rw [nodes, List.mem_map]
  exact exists_congr fun inner => and_congr_left' (Tree.nodes_perm order tree).mem_iff

end Unfolding

namespace Graph

variable {α : Type} {graph before after : Graph α} {node : NodeRef} {mark : Mark α}
  {children : List NodeRef} {tree : Unfolding α}

/-! ## What a node shows -/

/-- A node has a mark and children, whatever size it remembers. -/
def Shows (graph : Graph α) (node : NodeRef) (mark : Mark α) (children : List NodeRef) : Prop :=
  ∃ size, graph.vertex? node = some ⟨mark, children, size⟩

theorem shows_of_vertex? {vertex : Vertex α} (found : graph.vertex? node = some vertex) :
    graph.Shows node vertex.mark vertex.children :=
  ⟨vertex.size, found⟩

theorem Shows.children_eq (shows : graph.Shows node mark children) :
    graph.children node = children := by
  obtain ⟨size, found⟩ := shows
  rw [Graph.children, found]

/-- A node shows one mark and its children in one order. -/
theorem Shows.unique {other : Mark α} {others : List NodeRef}
    (shows : graph.Shows node mark children) (also : graph.Shows node other others) :
    mark = other ∧ children = others := by
  obtain ⟨size, found⟩ := shows
  obtain ⟨other_size, also_found⟩ := also
  rw [found] at also_found
  cases also_found
  exact ⟨rfl, rfl⟩

theorem Shows.lt_order (shows : graph.Shows node mark children) : node.index < graph.order := by
  obtain ⟨size, found⟩ := shows
  exact (Array.getElem?_eq_some_iff.1 found).1

/-- Every node of a graph shows something. -/
theorem exists_shows (present : node.index < graph.order) :
    ∃ mark children, graph.Shows node mark children :=
  ⟨_, _, _, Array.getElem?_eq_getElem present⟩

/-- A node that every way down from ends shows something. -/
theorem Ends.exists_shows (ends : graph.Ends node) :
    ∃ mark children, graph.Shows node mark children ∧ ∀ child ∈ children, graph.Ends child := by
  cases ends with
  | node found below => exact ⟨_, _, shows_of_vertex? found, below⟩

/-- A graph without cycles: every way down from any of its nodes ends. -/
def Acyclic (graph : Graph α) : Prop :=
  ∀ node : NodeRef, node.index < graph.order → graph.Ends node

/-- Every child is older than its parent. -/
def Descends (graph : Graph α) : Prop :=
  ∀ index < graph.order, ∀ child ∈ graph.children ⟨index⟩, child.index < index

instance (graph : Graph α) : Decidable graph.Descends :=
  inferInstanceAs (Decidable (∀ index < graph.order, ∀ child ∈ graph.children ⟨index⟩, _))

/-- A graph has no cycles if every child is older than its parent. -/
theorem acyclic_of_descends (descends : graph.Descends) : graph.Acyclic := by
  rintro ⟨index⟩ present
  induction index using Nat.strong_induction_on with
  | h index ih =>
    obtain ⟨mark, children, size, found⟩ := exists_shows present
    refine .node found fun child member => ?_
    have older : child.index < index := by
      refine descends index present child ?_
      rwa [Shows.children_eq ⟨size, found⟩]
    exact ih child.index older (Nat.lt_trans older present)

/-! ## Unfolding -/

/-- The tree shows what the graph shows: below each occurrence of a node are occurrences
of its children in order. -/
def IsUnfolding (graph : Graph α) (tree : Unfolding α) : Prop :=
  ∀ inner ∈ tree.preorder,
    graph.Shows (Unfolding.top inner) inner.value.mark (inner.children.map Unfolding.top)

theorem isUnfolding_node_iff {occurrence : Occurrence α} {children : List (Unfolding α)} :
    graph.IsUnfolding (Tree.node occurrence children) ↔
      graph.Shows occurrence.node occurrence.mark (children.map Unfolding.top) ∧
        ∀ child ∈ children, graph.IsUnfolding child := by
  simp only [IsUnfolding, Tree.preorder_node, List.mem_cons, forall_eq_or_imp, List.mem_flatMap,
    forall_exists_index, and_imp]
  refine and_congr Iff.rfl ?_
  exact ⟨fun each child member inner inside => each inner child member inside,
    fun each inner child member inside => each child member inner inside⟩

/-- What is below an occurrence is the unfolding of its node. -/
theorem IsUnfolding.inner (unfolds : graph.IsUnfolding tree) {inner : Unfolding α}
    (member : inner ∈ tree.preorder) : graph.IsUnfolding inner :=
  fun node inside => unfolds node (Tree.preorder_subset member inside)

/-- Below a node with an unfolding every way ends. -/
theorem IsUnfolding.ends (unfolds : graph.IsUnfolding tree) : graph.Ends tree.top := by
  induction tree using Tree.induct with
  | step occurrence children ih =>
    obtain ⟨⟨size, found⟩, below⟩ := isUnfolding_node_iff.1 unfolds
    refine .node found ?_
    intro child member
    obtain ⟨inner, inside, rfl⟩ := List.mem_map.1 member
    exact ih inner inside (below inner inside)

/-- Items with the same images are the same if each is known by its image. -/
theorem eq_of_map_eq {β γ : Type} {f : β → γ} {items others : List β}
    (same : items.map f = others.map f)
    (known : ∀ item ∈ items, ∀ other ∈ others, f item = f other → item = other) :
    items = others := by
  induction items generalizing others with
  | nil => exact (List.map_eq_nil_iff.1 same.symm).symm
  | cons item rest ih =>
    cases others with
    | nil => cases same
    | cons other more =>
      rw [List.map_cons, List.map_cons, List.cons.injEq] at same
      rw [known item List.mem_cons_self other List.mem_cons_self same.1]
      exact congrArg (other :: ·) (ih same.2 fun item member other inside =>
        known item (List.mem_cons_of_mem _ member) other (List.mem_cons_of_mem _ inside))

/-- A node has one unfolding. -/
theorem IsUnfolding.eq_of_top {other : Unfolding α} (unfolds : graph.IsUnfolding tree)
    (also : graph.IsUnfolding other) (same : tree.top = other.top) : tree = other := by
  induction tree using Tree.induct generalizing other with
  | step occurrence children ih =>
    obtain ⟨⟨node, mark⟩, others⟩ := other
    obtain ⟨own_node, own_mark⟩ := occurrence
    obtain rfl : own_node = node := same
    obtain ⟨shows, below⟩ := isUnfolding_node_iff.1 unfolds
    obtain ⟨also_shows, also_below⟩ := isUnfolding_node_iff.1 also
    obtain ⟨rfl, tops⟩ := shows.unique also_shows
    have same_children : children = others :=
      eq_of_map_eq tops fun child member other inside =>
        ih child member (below child member) (also_below other inside)
    rw [same_children]

/-- The occurrences below a node, if every way down has at most `fuel` nodes. -/
def unfoldingWithin (graph : Graph α) : Nat → NodeRef → Option (Unfolding α)
  | 0, _ => none
  | fuel + 1, node => do
    let vertex ← graph.vertex? node
    let children ← vertex.children.mapM (graph.unfoldingWithin fuel)
    return .node ⟨node, vertex.mark⟩ children

/-- The occurrences below a node; there are none above a cycle. -/
def unfolding? (graph : Graph α) (node : NodeRef) : Option (Unfolding α) :=
  graph.unfoldingWithin graph.order node

/-- The nodes below a node in a given order, each as often as it occurs. -/
def nodes? (graph : Graph α) (order : Tree.Order) (node : NodeRef) : Option (List NodeRef) :=
  (graph.unfolding? node).map (Unfolding.nodes order)

variable {fuel : Nat}

theorem unfoldingWithin_succ (h : graph.unfoldingWithin (fuel + 1) node = some tree) :
    ∃ vertex children, graph.vertex? node = some vertex ∧
      tree = .node ⟨node, vertex.mark⟩ children ∧
        vertex.children.map (graph.unfoldingWithin fuel) = children.map some := by
  simp only [unfoldingWithin, Option.bind_eq_bind, Option.bind_eq_some_iff] at h
  obtain ⟨vertex, found, children, below, whole⟩ := h
  exact ⟨vertex, children, found, (Option.some.inj whole).symm, mapM_eq_some_iff.1 below⟩

/-- What is found with some fuel is the unfolding of the node. -/
theorem isUnfolding_of_unfoldingWithin (h : graph.unfoldingWithin fuel node = some tree) :
    tree.top = node ∧ graph.IsUnfolding tree := by
  induction fuel generalizing node tree with
  | zero => cases h
  | succ fuel ih =>
    obtain ⟨vertex, children, found, rfl, below⟩ := unfoldingWithin_succ h
    have tops : vertex.children.map id = children.map Unfolding.top :=
      map_eq_of_results below fun _ _ result => (ih result).1.symm
    refine ⟨rfl, isUnfolding_node_iff.2 ⟨?_, ?_⟩⟩
    · rw [← tops, List.map_id]
      exact shows_of_vertex? found
    · intro child member
      have result : some child ∈ vertex.children.map (graph.unfoldingWithin fuel) := by
        rw [below]
        exact List.mem_map_of_mem member
      obtain ⟨item, -, unfolded⟩ := List.mem_map.1 result
      exact (ih unfolded).2

/-- Unfolding finds as much as expressions are found. -/
theorem EndsWithin.isSome_unfoldingWithin (within : graph.EndsWithin fuel node) :
    (graph.unfoldingWithin fuel node).isSome := by
  induction fuel generalizing node with
  | zero => cases within
  | succ fuel ih =>
    obtain ⟨vertex, found, below⟩ := endsWithin_succ_iff.1 within
    obtain ⟨children, results⟩ := exists_results fun child member => ih (below child member)
    rw [unfoldingWithin, found, Option.bind_eq_bind, Option.bind_some,
      mapM_eq_some_iff.2 results]
    rfl

/-- The expression below a node is made of the marks of its unfolding. -/
theorem exprWithin_of_unfoldingWithin (h : graph.unfoldingWithin fuel node = some tree) :
    graph.partWithin (fun _ count => count) fuel node = some tree.expr := by
  induction fuel generalizing node tree with
  | zero => cases h
  | succ fuel ih =>
    obtain ⟨vertex, children, found, rfl, below⟩ := unfoldingWithin_succ h
    have exprs : vertex.children.map (graph.partWithin (fun _ count => count) fuel) =
        (children.map Unfolding.expr).map some := by
      rw [List.map_map]
      exact map_eq_of_results below fun _ _ => ih
    rw [partWithin, found, Option.bind_eq_bind, Option.bind_some]
    dsimp only
    rw [List.take_length, mapM_eq_some_iff.2 exprs, Unfolding.expr_node]
    rfl

/-- Below a node from which every way ends there is an unfolding. -/
theorem Ends.exists_unfolding? (ends : graph.Ends node) :
    ∃ tree, graph.unfolding? node = some tree := by
  obtain ⟨fuel, within⟩ := ends.exists_endsWithin
  exact Option.isSome_iff_exists.1 within.within_order.isSome_unfoldingWithin

/-- The occurrences that are found are the tree that shows what the graph shows. -/
theorem unfolding?_eq_some_iff :
    graph.unfolding? node = some tree ↔ tree.top = node ∧ graph.IsUnfolding tree := by
  constructor
  · exact isUnfolding_of_unfoldingWithin
  · rintro ⟨rfl, unfolds⟩
    obtain ⟨found, unfolded⟩ := unfolds.ends.exists_unfolding?
    obtain ⟨same, also⟩ := isUnfolding_of_unfoldingWithin unfolded
    rw [unfolded, also.eq_of_top unfolds same]

theorem IsUnfolding.unfolding? (unfolds : graph.IsUnfolding tree) :
    graph.unfolding? tree.top = some tree :=
  unfolding?_eq_some_iff.2 ⟨rfl, unfolds⟩

theorem Ends.exists_isUnfolding (ends : graph.Ends node) :
    ∃ tree : Unfolding α, tree.top = node ∧ graph.IsUnfolding tree := by
  obtain ⟨tree, unfolded⟩ := ends.exists_unfolding?
  exact ⟨tree, unfolding?_eq_some_iff.1 unfolded⟩

/-- The expression below a node is that of its unfolding. -/
theorem IsUnfolding.expr? (unfolds : graph.IsUnfolding tree) :
    graph.expr? tree.top = some tree.expr :=
  exprWithin_of_unfoldingWithin unfolds.unfolding?

/-- A traversal lists the nodes of the unfolding. -/
theorem IsUnfolding.nodes? (unfolds : graph.IsUnfolding tree) (order : Tree.Order) :
    graph.nodes? order tree.top = some (tree.nodes order) := by
  rw [Graph.nodes?, unfolds.unfolding?, Option.map_some]

/-! ## Sides of a graph -/

variable {side : NodeRef → Prop}

/-- No way leads out of a side: it has the children of its nodes. -/
def IsClosed (graph : Graph α) (side : NodeRef → Prop) : Prop :=
  ∀ node mark children, side node → graph.Shows node mark children → ∀ child ∈ children, side child

/-- The nodes of a side show in the one graph what they show in the other. -/
def Keeps (side : NodeRef → Prop) (before after : Graph α) : Prop :=
  ∀ node mark children, side node → before.Shows node mark children →
    after.Shows node mark children

theorem Keeps.refl (side : NodeRef → Prop) (graph : Graph α) : Keeps side graph graph :=
  fun _ _ _ _ shows => shows

theorem Keeps.trans {middle : Graph α} (first : Keeps side before middle)
    (second : Keeps side middle after) : Keeps side before after :=
  fun node mark children inside shows =>
    second node mark children inside (first node mark children inside shows)

/-- The nodes of a graph without cycles have their children among them. -/
theorem Acyclic.isClosed (acyclic : graph.Acyclic) :
    graph.IsClosed fun node => node.index < graph.order := by
  intro node mark children inside shows child member
  obtain ⟨_, _, also, below⟩ := (acyclic node inside).exists_shows
  obtain ⟨-, rfl⟩ := shows.unique also
  obtain ⟨_, _, child_shows, -⟩ := (below child member).exists_shows
  exact child_shows.lt_order

/-- The nodes that occur in an unfolding are a side that no way leaves. -/
theorem IsUnfolding.isClosed (unfolds : graph.IsUnfolding tree) (order : Tree.Order) :
    graph.IsClosed (· ∈ tree.nodes order) := by
  intro node mark children inside shows child member
  obtain ⟨inner, listed, rfl⟩ := Unfolding.mem_nodes_iff.1 inside
  obtain ⟨-, rfl⟩ := shows.unique (unfolds inner listed)
  obtain ⟨below, beside, rfl⟩ := List.mem_map.1 member
  exact Unfolding.mem_nodes_iff.2
    ⟨below, Tree.preorder_subset listed (Tree.mem_preorder_of_mem_children beside), rfl⟩

/-- A node of a side that no way leaves keeps its unfolding. -/
theorem IsUnfolding.keep (unfolds : before.IsUnfolding tree) (closed : before.IsClosed side)
    (keeps : Keeps side before after) (inside : side tree.top) : after.IsUnfolding tree := by
  induction tree using Tree.induct with
  | step occurrence children ih =>
    obtain ⟨shows, below⟩ := isUnfolding_node_iff.1 unfolds
    refine isUnfolding_node_iff.2 ⟨keeps _ _ _ inside shows, fun child member => ?_⟩
    exact ih child member (below child member)
      (closed _ _ _ inside shows _ (List.mem_map_of_mem member))

/-- What can be read off a node, apart from its size, is the same in two graphs: its
children, the expression below it, the nodes that traversals list, its text, and its value
over any domain. -/
structure SameReadings (before after : Graph Float) (node : NodeRef) : Prop where
  children : after.children node = before.children node
  expr : after.expr? node = before.expr? node
  nodes : ∀ order, after.nodes? order node = before.nodes? order node
  text : after.text? node = before.text? node
  evaluation : ∀ domain, after.evaluate domain node = before.evaluate domain node

/-- Nothing is read differently below a node of a side that no way leaves, if its nodes
keep their marks and children. -/
theorem SameReadings.of_keeps {before after : Graph Float} (closed : before.IsClosed side)
    (keeps : Keeps side before after) (inside : side node) (ends : before.Ends node) :
    SameReadings before after node := by
  obtain ⟨tree, rfl, unfolds⟩ := ends.exists_isUnfolding
  have still := unfolds.keep closed keeps inside
  have shows := unfolds _ (Tree.self_mem_preorder tree)
  exact
    { children := by
        rw [(keeps _ _ _ inside shows).children_eq, shows.children_eq]
      expr := by rw [still.expr?, unfolds.expr?]
      nodes := fun order => by rw [still.nodes?, unfolds.nodes?]
      text := by rw [text?_of_expr? still.expr?, text?_of_expr? unfolds.expr?]
      evaluation := fun domain => by
        rw [evaluate_of_expr? still.expr?, evaluate_of_expr? unfolds.expr?] }

end Graph

end Formulary
