import Formulary.Proofs.Tree.Orders
import Mathlib.Logic.Basic

/-!
# Levels of trees

Level order lists a tree level by level.  Within a level it keeps the order in which
preorder comes to the nodes.  The queue that makes level order holds, at any time, what is
left of a level and the children of what is gone of it.

Main results:

- Definition `Tree.placed`: preorder with the depth of each node.
- Theorem `Tree.atDepth_placed`: a level is what preorder lists at its depth.
- Theorem `Tree.visit_append`: a queue lists what waits in front before the children of
  it.
- Theorem `Tree.levelOrder_eq_levels`: level order is one level after another.
- Theorem `Tree.level_ne_nil_iff`: there are as many levels as the tree is deep.
-/

namespace Formulary.Tree

universe u v

variable {β : Type u} {γ : Type v}

/-! ## Preorder with depths -/

mutual

/-- The subtrees in preorder with their depths, of which that of the root is given. -/
def placed : Nat → Tree β → List (Nat × Tree β)
  | depth, node value children => (depth, node value children) :: placedEach (depth + 1) children

/-- The subtrees of several trees in preorder with their depths. -/
def placedEach : Nat → List (Tree β) → List (Nat × Tree β)
  | _, [] => []
  | depth, tree :: rest => placed depth tree ++ placedEach depth rest

end

theorem placedEach_eq_flatMap (depth : Nat) (trees : List (Tree β)) :
    placedEach depth trees = trees.flatMap (placed depth) := by
  induction trees with
  | nil => rfl
  | cons tree rest ih => rw [placedEach, ih, List.flatMap_cons]

/-- A node comes before its children, which are one deeper. -/
@[simp]
theorem placed_node (depth : Nat) (value : β) (children : List (Tree β)) :
    placed depth (node value children) =
      (depth, node value children) :: children.flatMap (placed (depth + 1)) := by
  rw [placed, placedEach_eq_flatMap]

/-- Without the depths it is preorder. -/
theorem map_snd_placed (depth : Nat) (tree : Tree β) :
    (placed depth tree).map Prod.snd = tree.preorder := by
  induction tree using induct generalizing depth with
  | step value children ih =>
    rw [placed_node, preorder_node, List.map_cons, List.map_flatMap, List.flatMap_def,
      List.flatMap_def, List.map_congr_left fun child member => ih child member (depth + 1)]

/-- No node is above the root. -/
theorem le_of_mem_placed {depth : Nat} {tree : Tree β} {place : Nat × Tree β}
    (member : place ∈ placed depth tree) : depth ≤ place.1 := by
  induction tree using induct generalizing depth with
  | step value children ih =>
    rw [placed_node, List.mem_cons, List.mem_flatMap] at member
    rcases member with rfl | ⟨child, inside, member⟩
    · exact Nat.le_refl depth
    · exact Nat.le_of_succ_le (ih child inside member)

/-- What is listed at a depth, in the order of the list. -/
def atDepth (depth : Nat) (places : List (Nat × γ)) : List γ :=
  (places.filter fun place => place.1 == depth).map Prod.snd

theorem atDepth_cons_self (depth : Nat) (item : γ) (rest : List (Nat × γ)) :
    atDepth depth ((depth, item) :: rest) = item :: atDepth depth rest := by
  simp [atDepth]

theorem atDepth_cons_of_ne {depth other : Nat} (ne : other ≠ depth) (item : γ)
    (rest : List (Nat × γ)) : atDepth depth ((other, item) :: rest) = atDepth depth rest := by
  simp [atDepth, ne]

theorem atDepth_flatMap {δ : Type v} (depth : Nat) (items : List δ) (f : δ → List (Nat × γ)) :
    atDepth depth (items.flatMap f) = items.flatMap fun item => atDepth depth (f item) := by
  simp only [atDepth, List.filter_flatMap, List.map_flatMap]

theorem atDepth_eq_nil {depth : Nat} {places : List (Nat × γ)}
    (elsewhere : ∀ place ∈ places, place.1 ≠ depth) : atDepth depth places = [] := by
  rw [atDepth, List.map_eq_nil_iff, List.filter_eq_nil_iff]
  intro place member
  simpa using elsewhere place member

/-- A level is what preorder lists at its depth. -/
theorem atDepth_placed (depth below : Nat) (tree : Tree β) :
    atDepth (depth + below) (placed depth tree) = level below tree := by
  induction tree using induct generalizing depth below with
  | step value children ih =>
    rw [placed_node]
    cases below with
    | zero =>
      have deeper : atDepth depth (children.flatMap (placed (depth + 1))) = [] := by
        refine atDepth_eq_nil fun place member => ?_
        obtain ⟨child, -, inside⟩ := List.mem_flatMap.1 member
        exact Nat.ne_of_gt (le_of_mem_placed inside)
      rw [Nat.add_zero, atDepth_cons_self, deeper, level]
    | succ below =>
      have sum : depth + (below + 1) = depth + 1 + below := by omega
      rw [sum, atDepth_cons_of_ne (by omega), atDepth_flatMap, level, children_node,
        List.flatMap_def, List.flatMap_def,
        List.map_congr_left fun child member => ih child member (depth + 1) below]

/-! ## The queue -/

/-- What waits in front is listed before what waits behind it, and the children of what was
in front come last. -/
theorem visit_append (front back : List (Tree β)) :
    visit (front ++ back) = front ++ visit (back ++ front.flatMap children) := by
  induction front generalizing back with
  | nil => simp
  | cons tree front ih =>
    rw [List.cons_append, visit_cons, List.append_assoc, ih, List.flatMap_cons,
      List.append_assoc, List.cons_append]

/-- A queue is listed before the children of its trees. -/
theorem visit_eq_append (queue : List (Tree β)) :
    visit queue = queue ++ visit (queue.flatMap children) := by
  have listed := visit_append queue []
  rwa [List.append_nil, List.nil_append] at listed

/-- The levels of several trees side by side. -/
theorem flatMap_level_succ (depth : Nat) (trees : List (Tree β)) :
    trees.flatMap (level (depth + 1)) = (trees.flatMap children).flatMap (level depth) := by
  rw [List.flatMap_assoc]
  rfl

/-! ## Depth -/

/-- A number is below the greatest of several exactly when it is below one of them. -/
theorem lt_foldl_max_iff {number start : Nat} {numbers : List Nat} :
    number < numbers.foldl max start ↔ number < start ∨ ∃ other ∈ numbers, number < other := by
  induction numbers generalizing start with
  | nil => simp
  | cons first rest ih =>
    have either : number < max start first ↔ number < start ∨ number < first := by omega
    rw [List.foldl_cons, ih, either, or_assoc]
    simp only [List.mem_cons, or_and_right, exists_or, exists_eq_left]

/-- A tree is deeper than its children, and no more than that. -/
theorem succ_lt_depth_iff {depth : Nat} {tree : Tree β} :
    depth + 1 < tree.depth ↔ ∃ child ∈ tree.children, depth < child.depth := by
  obtain ⟨value, children⟩ := tree
  have root : depth + 1 < 1 + (children.map Tree.depth).foldl max 0 ↔
      depth < (children.map Tree.depth).foldl max 0 := by omega
  rw [depth_node, root, lt_foldl_max_iff]
  simp only [Nat.not_lt_zero, false_or, List.mem_map, exists_exists_and_eq_and, children_node]

theorem depth_pos (tree : Tree β) : 0 < tree.depth := by
  cases tree
  rw [depth_node]
  omega

/-- There are nodes at a depth exactly if it is less than that of the tree. -/
theorem level_ne_nil_iff {depth : Nat} {tree : Tree β} :
    level depth tree ≠ [] ↔ depth < tree.depth := by
  induction depth generalizing tree with
  | zero => simp [level, depth_pos]
  | succ depth ih =>
    rw [succ_lt_depth_iff, level, ne_eq, List.flatMap_eq_nil_iff]
    simp only [not_forall, exists_prop, ← ih, ne_eq]

theorem depth_map (f : β → γ) (tree : Tree β) : (map f tree).depth = tree.depth := by
  induction tree using induct with
  | step value children ih =>
    have below : (children.map (map f)).map depth = children.map depth := by
      rw [List.map_map]
      exact List.map_congr_left ih
    rw [map_node, depth_node, depth_node, below]

/-! ## Level order -/

/-- A queue lists its trees level by level, as many levels as the deepest of them has. -/
theorem visit_eq_levels {queue : List (Tree β)} {count : Nat}
    (shallow : ∀ tree ∈ queue, tree.depth ≤ count) :
    visit queue = (List.range count).flatMap fun depth => queue.flatMap (level depth) := by
  -- The queue starts with a whole level; once that is served it holds the next one.
  induction count generalizing queue with
  | zero =>
    have none : queue = [] := by
      refine List.eq_nil_iff_forall_not_mem.2 fun tree member => ?_
      have := depth_pos tree
      have := shallow tree member
      omega
    rw [none, visit_nil, List.range_zero, List.flatMap_nil]
  | succ count ih =>
    have shallower : ∀ tree ∈ queue.flatMap children, tree.depth ≤ count := by
      intro child member
      obtain ⟨tree, waiting, below⟩ := List.mem_flatMap.1 member
      refine Nat.le_of_not_lt fun deep => ?_
      exact Nat.not_lt_of_le (shallow tree waiting) (succ_lt_depth_iff.2 ⟨child, below, deep⟩)
    have top : queue.flatMap (level 0) = queue := List.flatMap_singleton' queue
    rw [visit_eq_append, ih shallower, List.range_succ_eq_map, List.flatMap_cons, top,
      List.flatMap_map]
    simp only [flatMap_level_succ]

/-- Level order is one level after another. -/
theorem levelOrder_eq_levels (tree : Tree β) :
    tree.levelOrder = (List.range tree.depth).flatMap fun depth => level depth tree := by
  have shallow : ∀ other ∈ [tree], other.depth ≤ tree.depth := by
    intro other member
    exact Nat.le_of_eq (congrArg depth (List.eq_of_mem_singleton member))
  rw [levelOrder_eq_visit, visit_eq_levels shallow]
  simp only [List.flatMap_singleton]

end Formulary.Tree
