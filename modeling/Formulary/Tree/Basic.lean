/-!
# Trees

A tree has a value at every node and its children in order.  Functions on trees
are folds: a node is turned into a result from its value and the results of its
children.

Main results:

- Theorem `Tree.fold_node`: what a fold does at a node.
- Theorem `Tree.induct`: what holds of a node whenever it holds of its children
  holds of every tree.
-/

namespace Formulary

universe u v

/-- A tree with a value at every node and any number of children. -/
inductive Tree (β : Type u) where
  | node (value : β) (children : List (Tree β))
deriving Repr

namespace Tree

variable {β : Type u} {γ : Type v}

/-- The value at the root. -/
def value : Tree β → β
  | node value _ => value

/-- The trees below the root. -/
def children : Tree β → List (Tree β)
  | node _ children => children

@[simp]
theorem value_node (value : β) (children : List (Tree β)) :
    (node value children).value = value :=
  rfl

@[simp]
theorem children_node (value : β) (children : List (Tree β)) :
    (node value children).children = children :=
  rfl

@[simp]
theorem node_eta (tree : Tree β) : node tree.value tree.children = tree := by
  cases tree
  rfl

/-! ## Folding and induction -/

mutual

/-- Combines the value at each node with the results of its children. -/
def fold (combine : β → List γ → γ) : Tree β → γ
  | node value children => combine value (foldEach combine children)

/-- The results of the trees of a list. -/
def foldEach (combine : β → List γ → γ) : List (Tree β) → List γ
  | [] => []
  | tree :: rest => fold combine tree :: foldEach combine rest

end

theorem foldEach_eq_map (combine : β → List γ → γ) (trees : List (Tree β)) :
    foldEach combine trees = trees.map (fold combine) := by
  induction trees with
  | nil => rfl
  | cons tree rest ih => rw [foldEach, ih, List.map_cons]

/-- A fold combines the value at a node with the folds of its children. -/
@[simp]
theorem fold_node (combine : β → List γ → γ) (value : β) (children : List (Tree β)) :
    fold combine (node value children) = combine value (children.map (fold combine)) := by
  rw [fold, foldEach_eq_map]

/-- What holds of a node whenever it holds of its children holds of every
tree. -/
theorem induct {motive : Tree β → Prop}
    (step : ∀ value children,
      (∀ child ∈ children, motive child) → motive (node value children))
    (tree : Tree β) : motive tree := by
  refine Tree.rec (motive_1 := motive)
    (motive_2 := fun trees => ∀ child ∈ trees, motive child) ?_ ?_ ?_ tree
  · exact fun value children ih => step value children ih
  · intro child h
    cases h
  · intro head tail first rest child h
    rcases List.mem_cons.1 h with rfl | h
    · exact first
    · exact rest child h

/-! ## Size and depth -/

/-- The number of nodes. -/
def size (tree : Tree β) : Nat :=
  fold (fun _ sizes => 1 + sizes.foldr (· + ·) 0) tree

/-- The number of nodes on a longest way down. -/
def depth (tree : Tree β) : Nat :=
  fold (fun _ depths => 1 + depths.foldl max 0) tree

@[simp]
theorem size_node (value : β) (children : List (Tree β)) :
    size (node value children) = 1 + (children.map size).foldr (· + ·) 0 :=
  fold_node _ value children

@[simp]
theorem depth_node (value : β) (children : List (Tree β)) :
    depth (node value children) = 1 + (children.map depth).foldl max 0 :=
  fold_node _ value children

end Tree

end Formulary
