import Formulary.Tree.Basic

/-!
# Traversals

The nodes of a tree are listed parents first: in preorder, where a child comes
with all below it before the next child, or in level order, where all nodes of
a level come before the next level.  Each node is listed as the subtree of which
it is the root.

Main results:

- Theorem `Tree.preorder_node`: preorder at a node.
- Theorem `Tree.visit_cons`: one step of the queue of level order.
- Theorem `Tree.levelOrder_eq_visit`: level order is what the queue lists.
- Theorem `Tree.length_preorder`: preorder lists as many nodes as there are.
-/

namespace Formulary.Tree

universe u

variable {β : Type u}

/-! ## Preorder -/

mutual

/-- The subtrees in preorder. -/
def preorder : Tree β → List (Tree β)
  | node value children => node value children :: preorderEach children

/-- The subtrees of several trees in preorder. -/
def preorderEach : List (Tree β) → List (Tree β)
  | [] => []
  | tree :: rest => preorder tree ++ preorderEach rest

end

theorem preorderEach_eq_flatMap (trees : List (Tree β)) :
    preorderEach trees = trees.flatMap preorder := by
  induction trees with
  | nil => rfl
  | cons tree rest ih => rw [preorderEach, ih, List.flatMap_cons]

/-- Preorder lists a node and then its children's subtrees. -/
@[simp]
theorem preorder_node (value : β) (children : List (Tree β)) :
    preorder (node value children) = node value children :: children.flatMap preorder := by
  rw [preorder, preorderEach_eq_flatMap]

/-- Preorder lists as many nodes as there are. -/
theorem length_preorder (tree : Tree β) : tree.preorder.length = tree.size := by
  induction tree using induct with
  | step value children ih =>
    rw [preorder_node, size_node, List.length_cons, List.length_flatMap, Nat.add_comm,
      List.sum_eq_foldr]
    congr 2
    exact List.map_congr_left ih

/-! ## Level order -/

/-- The number of nodes of several trees. -/
def totalSize (trees : List (Tree β)) : Nat :=
  (trees.map size).foldr (· + ·) 0

@[simp]
theorem totalSize_nil : totalSize ([] : List (Tree β)) = 0 :=
  rfl

theorem totalSize_cons (tree : Tree β) (rest : List (Tree β)) :
    totalSize (tree :: rest) = tree.size + totalSize rest :=
  rfl

theorem totalSize_append (trees others : List (Tree β)) :
    totalSize (trees ++ others) = totalSize trees + totalSize others := by
  induction trees with
  | nil => rw [List.nil_append, totalSize_nil, Nat.zero_add]
  | cons tree rest ih => rw [List.cons_append, totalSize_cons, totalSize_cons, ih, Nat.add_assoc]

/-- Taking the first tree of a queue and appending its children leaves one node
less. -/
theorem totalSize_append_children (tree : Tree β) (queue : List (Tree β)) :
    totalSize (queue ++ tree.children) + 1 = totalSize (tree :: queue) := by
  have own : tree.size = 1 + totalSize tree.children := by
    cases tree
    exact size_node _ _
  rw [totalSize_append, totalSize_cons, own]
  omega

/-- The order of the trees does not change their number of nodes. -/
@[simp]
theorem totalSize_reverse (trees : List (Tree β)) : totalSize trees.reverse = totalSize trees := by
  induction trees with
  | nil => rfl
  | cons tree rest ih =>
    rw [List.reverse_cons, totalSize_append, totalSize_cons, totalSize_cons, totalSize_nil, ih]
    omega

/-- Lists the trees of a queue, the children of each behind all that waited
before them. -/
def visit : List (Tree β) → List (Tree β)
  | [] => []
  | tree :: queue => tree :: visit (queue ++ tree.children)
termination_by queue => totalSize queue
decreasing_by
  have := totalSize_append_children tree queue
  omega

@[simp]
theorem visit_nil : visit ([] : List (Tree β)) = [] := by
  rw [visit]

/-- The first tree of a queue is listed, and its children are queued up. -/
theorem visit_cons (tree : Tree β) (queue : List (Tree β)) :
    visit (tree :: queue) = tree :: visit (queue ++ tree.children) := by
  rw [visit]

/-- Serves a queue that is kept in two lists: `front` from its head on, and
`back` from its end on.  What is listed is collected in reverse. -/
def serve : List (Tree β) → List (Tree β) → List (Tree β) → List (Tree β)
  | [], [], listed => listed.reverse
  | [], last :: back, listed => serve (last :: back).reverse [] listed
  | tree :: front, back, listed => serve front (tree.children.reverse ++ back) (tree :: listed)
termination_by front back => (totalSize front + totalSize back, back.length)
decreasing_by
  · rw [totalSize_reverse, totalSize_nil, Nat.add_zero, Nat.zero_add]
    exact Prod.Lex.right _ (Nat.succ_pos _)
  · have := totalSize_append_children tree front
    rw [totalSize_append] at this
    rw [totalSize_append, totalSize_reverse]
    exact Prod.Lex.left _ _ (by omega)

/-- The subtrees in level order. -/
def levelOrder (tree : Tree β) : List (Tree β) :=
  serve [tree] [] []

/-- Serving a queue lists its trees and their children in the order of the
queue. -/
theorem serve_eq_visit (front back listed : List (Tree β)) :
    serve front back listed = listed.reverse ++ visit (front ++ back.reverse) := by
  fun_induction serve front back listed with
  | case1 listed => simp
  | case2 listed last back ih => simpa using ih
  | case3 back listed tree front ih => simp [ih, visit_cons]

/-- Level order is what the queue lists from the root on. -/
theorem levelOrder_eq_visit (tree : Tree β) : levelOrder tree = visit [tree] :=
  serve_eq_visit [tree] [] []

/-- The subtrees at a given depth from left to right. -/
def level : Nat → Tree β → List (Tree β)
  | 0, tree => [tree]
  | depth + 1, tree => tree.children.flatMap (level depth)

/-! ## Orders by name -/

/-- The orders of a traversal. -/
inductive Order
  | breadthFirst
  | depthFirst
deriving DecidableEq, Repr

/-- The order with a given name. -/
def Order.ofName? (name : String) : Option Order :=
  if name = "breadth_first" then some .breadthFirst
  else if name = "depth_first" then some .depthFirst
  else none

/-- The wording of the refusal of a name that belongs to no order. -/
def Order.refusal (name : String) : String :=
  s!"Invalid traversal_order: {name}"

/-- The subtrees in a given order. -/
def nodes : Order → Tree β → List (Tree β)
  | .breadthFirst => levelOrder
  | .depthFirst => preorder

end Formulary.Tree
