import Formulary.Tree.Traversal

/-!
# Level order and preorder

Level order and preorder list the same nodes, each as often as the other does.

Main results:

- Theorem `Tree.visit_perm`: a queue lists what its trees list in preorder.
- Theorem `Tree.levelOrder_perm`: level order is a rearrangement of preorder.
- Theorem `Tree.length_nodes`: each order lists as many nodes as there are.
- Theorem `Tree.nodes_map`: a traversal passes the same places whatever the values are.
-/

namespace Formulary.Tree

universe u v

variable {β : Type u} {γ : Type v}

/-- A queue lists the nodes that its trees list in preorder. -/
theorem visit_perm (queue : List (Tree β)) : (visit queue).Perm (queue.flatMap preorder) := by
  fun_induction visit queue with
  | case1 => exact .nil
  | case2 tree queue ih =>
    obtain ⟨value, children⟩ := tree
    rw [children_node, List.flatMap_append] at ih
    rw [children_node, List.flatMap_cons, preorder_node, List.cons_append]
    exact .cons _ (ih.trans List.perm_append_comm)

/-- Level order is a rearrangement of preorder. -/
theorem levelOrder_perm (tree : Tree β) : tree.levelOrder.Perm tree.preorder := by
  have listed := visit_perm [tree]
  rw [List.flatMap_singleton] at listed
  rw [levelOrder_eq_visit]
  exact listed

/-- A node is listed in level order exactly when it is in preorder. -/
theorem mem_levelOrder_iff {tree node : Tree β} : node ∈ tree.levelOrder ↔ node ∈ tree.preorder :=
  (levelOrder_perm tree).mem_iff

/-- The root is listed. -/
theorem self_mem_preorder (tree : Tree β) : tree ∈ tree.preorder := by
  cases tree
  rw [preorder_node]
  exact List.mem_cons_self

/-- What is listed below a child is listed below its parent. -/
theorem mem_preorder_of_mem_child {value : β} {children : List (Tree β)} {child node : Tree β}
    (member : child ∈ children) (listed : node ∈ child.preorder) :
    node ∈ (Tree.node value children).preorder := by
  rw [preorder_node]
  exact List.mem_cons_of_mem _ (List.mem_flatMap.2 ⟨child, member, listed⟩)

/-- The children of the root are listed. -/
theorem mem_preorder_of_mem_children {tree child : Tree β} (member : child ∈ tree.children) :
    child ∈ tree.preorder := by
  cases tree
  exact mem_preorder_of_mem_child member (self_mem_preorder child)

/-- What is listed below a node of a tree is listed below its root. -/
theorem preorder_subset {tree inner : Tree β} (member : inner ∈ tree.preorder) :
    inner.preorder ⊆ tree.preorder := by
  induction tree using induct with
  | step value children ih =>
    rw [preorder_node, List.mem_cons, List.mem_flatMap] at member
    rcases member with rfl | ⟨child, inside, member⟩
    · exact List.Subset.refl _
    · exact fun node listed => mem_preorder_of_mem_child inside (ih child inside member listed)

/-- Each order is a rearrangement of preorder. -/
theorem nodes_perm (order : Order) (tree : Tree β) : (tree.nodes order).Perm tree.preorder := by
  cases order with
  | breadthFirst => exact levelOrder_perm tree
  | depthFirst => exact .refl _

/-- Each order lists as many nodes as there are. -/
theorem length_nodes (order : Order) (tree : Tree β) : (tree.nodes order).length = tree.size :=
  (nodes_perm order tree).length_eq.trans (length_preorder tree)

/-! ## Other values -/

/-- The tree with other values at its nodes. -/
def map (f : β → γ) (tree : Tree β) : Tree γ :=
  fold (fun value children => node (f value) children) tree

@[simp]
theorem map_node (f : β → γ) (value : β) (children : List (Tree β)) :
    map f (node value children) = node (f value) (children.map (map f)) :=
  fold_node _ value children

@[simp]
theorem value_map (f : β → γ) (tree : Tree β) : (map f tree).value = f tree.value := by
  cases tree
  rw [map_node, value_node, value_node]

@[simp]
theorem children_map (f : β → γ) (tree : Tree β) :
    (map f tree).children = tree.children.map (map f) := by
  cases tree
  rw [map_node, children_node, children_node]

theorem preorder_map (f : β → γ) (tree : Tree β) :
    (map f tree).preorder = tree.preorder.map (map f) := by
  induction tree using induct with
  | step value children ih =>
    rw [map_node, preorder_node, preorder_node, List.map_cons, map_node, List.map_flatMap,
      List.flatMap_map, List.flatMap_def, List.flatMap_def, List.map_congr_left ih]

theorem visit_map (f : β → γ) (queue : List (Tree β)) :
    visit (queue.map (map f)) = (visit queue).map (map f) := by
  fun_induction visit queue with
  | case1 => rw [List.map_nil, visit_nil]
  | case2 tree queue ih =>
    rw [List.map_cons, visit_cons, List.map_cons, children_map, ← List.map_append, ih]

/-- A traversal passes the same places, whatever the values are. -/
theorem nodes_map (f : β → γ) (order : Order) (tree : Tree β) :
    (map f tree).nodes order = (tree.nodes order).map (map f) := by
  cases order with
  | breadthFirst =>
    rw [nodes, nodes, levelOrder_eq_visit, levelOrder_eq_visit]
    exact visit_map f [tree]
  | depthFirst => exact preorder_map f tree

end Formulary.Tree
