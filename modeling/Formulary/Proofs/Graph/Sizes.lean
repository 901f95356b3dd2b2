import Mathlib.Logic.Relation
import Formulary.Proofs.Graph.Unfoldings

/-!
# Remembered sizes

A node that was asked for its size remembers it, and so do all nodes on the way.  A child
that is added later is counted only if no node from which it can be reached remembers
anything.  This module shows that remembered sizes are numbers of nodes as long as this
is heeded, and that asking for sizes changes nothing else.

Main results:

- Definition `Graph.Exact`: what the nodes of a side remember are numbers of nodes.
- Theorem `Graph.Exact.size?_eq`: then a node reports how many nodes are below it, and
  all that is remembered is still right.
- Theorem `Graph.Exact.attach`: a child may be added where nothing above remembers
  anything.
- Theorem `Graph.Exact.extend`: nodes may be added that remember nothing.
-/

namespace Formulary.Graph

variable {α : Type} {graph before after : Graph α} {node parent child : NodeRef} {mark : Mark α}
  {children : List NodeRef} {tree : Unfolding α} {side : NodeRef → Prop} {fuel size : Nat}

/-- The size that a node remembers. -/
def kept? (graph : Graph α) (node : NodeRef) : Option Nat :=
  (graph.vertex? node).bind Vertex.size

/-! ## Asking for sizes -/

/-- The sum of the sizes that nodes report one after another, and the graph after
that. -/
def sizesWithin (fuel : Nat) : Graph α → List NodeRef → Option (Nat × Graph α)
  | graph, [] => some (0, graph)
  | graph, node :: rest => do
    let (size, graph) ← graph.sizeWithin fuel node
    let (sizes, graph) ← sizesWithin fuel graph rest
    return (size + sizes, graph)

theorem foldlM_sizeWithin (fuel below : Nat) (graph : Graph α) (children : List NodeRef) :
    children.foldlM (fun (below, graph) child => do
        let (size, graph) ← sizeWithin fuel graph child
        return (below + size, graph)) (below, graph) =
      (graph.sizesWithin fuel children).map fun (sizes, after) => (below + sizes, after) := by
  induction children generalizing below graph with
  | nil => rfl
  | cons child rest ih =>
    rw [List.foldlM_cons, sizesWithin]
    dsimp only
    cases sizeWithin fuel graph child with
    | none => rfl
    | some answer =>
      have later := ih (below + answer.1) answer.2
      simp only [Option.bind_eq_bind, Option.bind_some, Option.pure_def] at later ⊢
      rw [later]
      cases sizesWithin fuel answer.2 rest with
      | none => rfl
      | some answers => rw [Option.map_some, Option.bind_some, Option.map_some, Nat.add_assoc]

/-- A node gives the size that it remembers. -/
theorem sizeWithin_of_kept {vertex : Vertex α} (found : graph.vertex? node = some vertex)
    (kept : vertex.size = some size) :
    graph.sizeWithin (fuel + 1) node = some (size, graph) := by
  rw [sizeWithin, found, Option.bind_eq_bind, Option.bind_some]
  dsimp only
  rw [kept]
  rfl

/-- Else it counts itself and asks its children, and remembers the sum. -/
theorem sizeWithin_of_not_kept {vertex : Vertex α} (found : graph.vertex? node = some vertex)
    (kept : vertex.size = none) :
    graph.sizeWithin (fuel + 1) node =
      (graph.sizesWithin fuel vertex.children).map fun (below, after) =>
        (1 + below, after.remember node (1 + below)) := by
  rw [sizeWithin, found, Option.bind_eq_bind, Option.bind_some]
  dsimp only
  rw [kept, foldlM_sizeWithin]
  rcases sizesWithin fuel graph vertex.children with _ | ⟨below, after⟩
  · rfl
  · dsimp only [Option.map_some, Option.bind_eq_bind, Option.bind_some, Option.pure_def]
    rw [Nat.zero_add]

/-! ## What remembering changes -/

theorem vertex?_remember_self (graph : Graph α) (node : NodeRef) (size : Nat) :
    (graph.remember node size).vertex? node =
      (graph.vertex? node).map fun vertex => { vertex with size := some size } := by
  simp [remember, vertex?, Array.getElem?_modify]

theorem vertex?_remember_of_ne {other : NodeRef} (ne : other ≠ node) (graph : Graph α)
    (size : Nat) : (graph.remember node size).vertex? other = graph.vertex? other := by
  have apart : node.index ≠ other.index := fun same => ne (by cases node; cases other; simp_all)
  simp [remember, vertex?, Array.getElem?_modify, apart]

/-- Two graphs show the same everywhere. -/
def SameShape (before after : Graph α) : Prop :=
  ∀ node mark children, before.Shows node mark children ↔ after.Shows node mark children

theorem SameShape.refl (graph : Graph α) : SameShape graph graph :=
  fun _ _ _ => Iff.rfl

theorem SameShape.symm (same : SameShape before after) : SameShape after before :=
  fun node mark children => (same node mark children).symm

theorem SameShape.trans {middle : Graph α} (first : SameShape before middle)
    (second : SameShape middle after) : SameShape before after :=
  fun node mark children => (first node mark children).trans (second node mark children)

theorem SameShape.keeps (same : SameShape before after) (side : NodeRef → Prop) :
    Keeps side before after :=
  fun node mark children _ => (same node mark children).1

theorem SameShape.isClosed (same : SameShape before after) (closed : before.IsClosed side) :
    after.IsClosed side :=
  fun node mark children inside shows =>
    closed node mark children inside ((same node mark children).2 shows)

theorem SameShape.isUnfolding (same : SameShape before after) (unfolds : before.IsUnfolding tree) :
    after.IsUnfolding tree :=
  fun inner member => (same _ _ _).1 (unfolds inner member)

theorem SameShape.endsWithin (same : SameShape before after)
    (within : before.EndsWithin fuel node) : after.EndsWithin fuel node := by
  induction fuel generalizing node with
  | zero => cases within
  | succ fuel ih =>
    obtain ⟨vertex, found, below⟩ := endsWithin_succ_iff.1 within
    obtain ⟨size, still⟩ := (same _ _ _).1 (shows_of_vertex? found)
    exact endsWithin_succ_iff.2 ⟨_, still, fun child member => ih (below child member)⟩

/-- Only a size is remembered. -/
theorem sameShape_remember (graph : Graph α) (node : NodeRef) (size : Nat) :
    SameShape graph (graph.remember node size) := by
  intro other mark children
  by_cases same : other = node
  · subst same
    rw [Shows, Shows, vertex?_remember_self]
    rcases graph.vertex? other with _ | ⟨own, others, kept⟩ <;> simp
  · rw [Shows, Shows, vertex?_remember_of_ne same]

/-- Asking nodes for their sizes changes what is remembered and nothing else, if asking
one does. -/
theorem sameShape_of_sizesWithin
    (each : ∀ {before after : Graph α} {node size},
      before.sizeWithin fuel node = some (size, after) → SameShape before after)
    (asked : before.sizesWithin fuel children = some (size, after)) : SameShape before after := by
  induction children generalizing before size with
  | nil =>
    cases asked
    exact .refl _
  | cons child rest ih =>
    simp only [sizesWithin, Option.bind_eq_bind, Option.bind_eq_some_iff] at asked
    obtain ⟨⟨own, middle⟩, first, ⟨others, last⟩, later, whole⟩ := asked
    cases whole
    exact (each first).trans (ih later)

/-- Asking a node for its size changes what is remembered and nothing else. -/
theorem sameShape_of_sizeWithin (asked : before.sizeWithin fuel node = some (size, after)) :
    SameShape before after := by
  induction fuel generalizing before after node size with
  | zero => cases asked
  | succ fuel ih =>
    cases found : before.vertex? node with
    | none =>
      rw [sizeWithin, found] at asked
      cases asked
    | some vertex =>
      cases kept : vertex.size with
      | some own =>
        rw [sizeWithin_of_kept found kept] at asked
        cases asked
        exact .refl _
      | none =>
        rw [sizeWithin_of_not_kept found kept, Option.map_eq_some_iff] at asked
        obtain ⟨⟨below, counted⟩, sizes, whole⟩ := asked
        cases whole
        exact (sameShape_of_sizesWithin ih sizes).trans (sameShape_remember _ _ _)

theorem sameShape_of_size? (asked : before.size? node = some (size, after)) :
    SameShape before after :=
  sameShape_of_sizeWithin asked

/-- What reports a size is a node of the graph. -/
theorem exists_shows_of_size? (asked : graph.size? node = some (size, after)) :
    ∃ mark children, graph.Shows node mark children := by
  rw [size?] at asked
  cases enough : graph.order with
  | zero =>
    rw [enough] at asked
    cases asked
  | succ fuel =>
    rw [enough] at asked
    cases found : graph.vertex? node with
    | none =>
      rw [sizeWithin, found] at asked
      cases asked
    | some vertex => exact ⟨_, _, shows_of_vertex? found⟩

/-! ## Sizes that are right -/

/-- No way leaves a side, and what its nodes remember are the numbers of nodes below
them, each counted once for every way down to it. -/
structure Exact (graph : Graph α) (side : NodeRef → Prop) : Prop where
  closed : graph.IsClosed side
  sizes : ∀ tree : Unfolding α, graph.IsUnfolding tree → side tree.top →
    ∀ size, graph.kept? tree.top = some size → size = tree.size

/-- A side on which nothing is remembered is exact. -/
theorem exact_of_not_kept (closed : graph.IsClosed side)
    (nothing : ∀ node, side node → graph.kept? node = none) : graph.Exact side where
  closed := closed
  sizes := by
    intro tree _ inside size kept
    rw [nothing _ inside] at kept
    cases kept

theorem kept?_remember_of_ne {other : NodeRef} (ne : other ≠ node) (graph : Graph α)
    (size : Nat) : (graph.remember node size).kept? other = graph.kept? other := by
  rw [kept?, kept?, vertex?_remember_of_ne ne]

/-- The number of nodes below a node may be remembered. -/
theorem Exact.remember (exact : graph.Exact side) (unfolds : graph.IsUnfolding tree) :
    (graph.remember tree.top tree.size).Exact side where
  closed := (sameShape_remember _ _ _).isClosed exact.closed
  sizes := by
    intro other unfolds_later inside size kept
    have unfolds_other : graph.IsUnfolding other :=
      (sameShape_remember _ _ _).symm.isUnfolding unfolds_later
    by_cases same : other.top = tree.top
    · obtain rfl := unfolds_other.eq_of_top unfolds same
      obtain ⟨own, found⟩ := unfolds _ (Tree.self_mem_preorder _)
      rw [kept?, vertex?_remember_self, found] at kept
      exact (Option.some.inj kept).symm
    · rw [kept?_remember_of_ne same] at kept
      exact exact.sizes other unfolds_other inside size kept

/-- The nodes of a list report how many nodes are below them, if each node does. -/
theorem Exact.sizesWithin_eq
    (each : ∀ {graph : Graph α} {tree : Unfolding α}, graph.Exact side → graph.IsUnfolding tree →
      side tree.top → graph.EndsWithin fuel tree.top →
        ∃ after, graph.sizeWithin fuel tree.top = some (tree.size, after) ∧ after.Exact side)
    (exact : graph.Exact side) {trees : List (Unfolding α)}
    (unfolds : ∀ tree ∈ trees, graph.IsUnfolding tree)
    (inside : ∀ tree ∈ trees, side (Unfolding.top tree))
    (enough : ∀ tree ∈ trees, graph.EndsWithin fuel (Unfolding.top tree)) :
    ∃ after, graph.sizesWithin fuel (trees.map Unfolding.top) =
      some (Tree.totalSize trees, after) ∧ after.Exact side := by
  induction trees generalizing graph with
  | nil => exact ⟨graph, rfl, exact⟩
  | cons tree rest ih =>
    obtain ⟨middle, first, exact_middle⟩ := each exact (unfolds tree List.mem_cons_self)
      (inside tree List.mem_cons_self) (enough tree List.mem_cons_self)
    have same := sameShape_of_sizeWithin first
    obtain ⟨after, others, exact_after⟩ := ih exact_middle
      (fun other member => same.isUnfolding (unfolds other (List.mem_cons_of_mem _ member)))
      (fun other member => inside other (List.mem_cons_of_mem _ member))
      (fun other member => same.endsWithin (enough other (List.mem_cons_of_mem _ member)))
    refine ⟨after, ?_, exact_after⟩
    rw [List.map_cons, sizesWithin, first, Option.bind_eq_bind, Option.bind_some]
    dsimp only
    rw [others]
    rfl

/-- A node of an exact side reports how many nodes are below it, and the side stays
exact. -/
theorem Exact.sizeWithin_eq (exact : graph.Exact side) (unfolds : graph.IsUnfolding tree)
    (inside : side tree.top) (enough : graph.EndsWithin fuel tree.top) :
    ∃ after, graph.sizeWithin fuel tree.top = some (tree.size, after) ∧ after.Exact side := by
  induction fuel generalizing graph tree with
  | zero => cases enough
  | succ fuel ih =>
    obtain ⟨occurrence, trees⟩ := tree
    obtain ⟨⟨kept, found⟩, below⟩ := isUnfolding_node_iff.1 unfolds
    cases kept with
    | some size =>
      have right : size = Tree.size (Tree.node occurrence trees) :=
        exact.sizes _ unfolds inside size (by rw [kept?, Unfolding.top_node, found]; rfl)
      refine ⟨graph, ?_, exact⟩
      rw [Unfolding.top_node, sizeWithin_of_kept found rfl, right]
    | none =>
      obtain ⟨vertex, also_found, children_end⟩ := endsWithin_succ_iff.1 enough
      rw [Unfolding.top_node, found] at also_found
      cases also_found
      obtain ⟨counted, sizes, exact_counted⟩ := exact.sizesWithin_eq ih below
        (fun child member => exact.closed _ _ _ inside ⟨none, found⟩ _ (List.mem_map_of_mem member))
        (fun child member => children_end _ (List.mem_map_of_mem member))
      have same := sameShape_of_sizesWithin sameShape_of_sizeWithin sizes
      have whole : 1 + Tree.totalSize trees = Tree.size (Tree.node occurrence trees) :=
        (Tree.size_node occurrence trees).symm
      refine ⟨_, ?_, exact_counted.remember (same.isUnfolding unfolds)⟩
      rw [Unfolding.top_node, sizeWithin_of_not_kept found rfl, sizes, Option.map_some]
      dsimp only
      rw [whole]

/-- A node of an exact side reports as many nodes as a traversal lists. -/
theorem Exact.size?_eq (exact : graph.Exact side) (unfolds : graph.IsUnfolding tree)
    (inside : side tree.top) :
    ∃ after, graph.size? tree.top = some (tree.size, after) ∧ after.Exact side := by
  obtain ⟨fuel, within⟩ := unfolds.ends.exists_endsWithin
  exact exact.sizeWithin_eq unfolds inside within.within_order

/-! ## Changes that keep sizes right -/

/-- All sizes stay right if every node that remembers one is on a side that no way
leaves, and the side has been the same before. -/
theorem Exact.transfer (exact : before.Exact fun _ => True) (closed : after.IsClosed side)
    (keeps : Keeps side after before)
    (remembered : ∀ node size, after.kept? node = some size →
      side node ∧ before.kept? node = some size) : after.Exact fun _ => True where
  closed := fun _ _ _ _ _ _ _ => trivial
  sizes := by
    intro tree unfolds _ size kept
    obtain ⟨inside, kept_before⟩ := remembered tree.top size kept
    exact exact.sizes tree (unfolds.keep closed keeps inside) trivial size kept_before

/-- A graph that has more nodes.  The new ones remember nothing. -/
structure Extends (before after : Graph α) : Prop where
  order_le : before.order ≤ after.order
  old : ∀ node : NodeRef, node.index < before.order → after.vertex? node = before.vertex? node
  new : ∀ node : NodeRef, before.order ≤ node.index → after.kept? node = none

theorem Extends.refl (graph : Graph α) : Extends graph graph where
  order_le := Nat.le_refl _
  old := fun _ _ => rfl
  new := by
    intro node beyond
    rw [kept?, vertex?, Array.getElem?_eq_none beyond]
    rfl

theorem Extends.trans {middle : Graph α} (first : Extends before middle)
    (second : Extends middle after) : Extends before after where
  order_le := Nat.le_trans first.order_le second.order_le
  old := fun node inside =>
    (second.old node (Nat.lt_of_lt_of_le inside first.order_le)).trans (first.old node inside)
  new := by
    intro node beyond
    by_cases inside : node.index < middle.order
    · rw [kept?, second.old node inside]
      exact first.new node beyond
    · exact second.new node (Nat.le_of_not_lt inside)

theorem extends_insert (graph : Graph α) (mark : Mark α) (children : List NodeRef) :
    Extends graph (graph.insert mark children).2 where
  order_le := by
    rw [order_insert]
    exact Nat.le_succ _
  old := fun _ inside => vertex?_insert_of_lt inside mark children
  new := by
    intro node beyond
    by_cases last : node.index = graph.order
    · obtain rfl : node = (graph.insert mark children).1 := congrArg NodeRef.mk last
      rw [kept?, vertex?_insert_self]
      rfl
    · refine (Extends.refl _).new node ?_
      rw [order_insert]
      exact Nat.lt_of_le_of_ne beyond (Ne.symm last)

/-- The old nodes show what they showed. -/
theorem Extends.keeps (grown : Extends before after) (side : NodeRef → Prop) :
    Keeps side before after := by
  intro node mark children _ shows
  rw [Shows, grown.old node shows.lt_order]
  exact shows

theorem Extends.isUnfolding (grown : Extends before after) (unfolds : before.IsUnfolding tree) :
    after.IsUnfolding tree :=
  fun inner member => grown.keeps (fun _ => True) _ _ _ trivial (unfolds inner member)

/-- All sizes stay right when nodes are added that remember nothing. -/
theorem Exact.extend (exact : before.Exact fun _ => True) (acyclic : before.Acyclic)
    (grown : Extends before after) : after.Exact fun _ => True := by
  have shows_before : Keeps (fun node => node.index < before.order) after before := by
    intro node mark children inside shows
    rwa [Shows, grown.old node inside] at shows
  refine exact.transfer ?_ shows_before ?_
  · exact fun node mark children inside shows =>
      acyclic.isClosed node mark children inside (shows_before _ _ _ inside shows)
  · intro node size kept
    by_cases inside : node.index < before.order
    · rw [kept?, grown.old node inside] at kept
      exact ⟨inside, kept⟩
    · rw [grown.new node (Nat.le_of_not_lt inside)] at kept
      cases kept

/-- A node is above another if a way leads down from it to the other. -/
def IsAbove (graph : Graph α) : NodeRef → NodeRef → Prop :=
  Relation.TransGen fun upper lower => lower ∈ graph.children upper

/-- Where every child is older than its parent, what is above is younger. -/
theorem Descends.lt_of_isAbove {upper lower : NodeRef} (descends : graph.Descends)
    (above : graph.IsAbove upper lower) : lower.index < upper.index := by
  have edge : ∀ {upper lower : NodeRef}, lower ∈ graph.children upper →
      lower.index < upper.index := by
    intro upper lower member
    by_cases present : upper.index < graph.order
    · exact descends upper.index present lower member
    · rw [Graph.children, vertex?, Array.getElem?_eq_none (Nat.le_of_not_lt present)] at member
      cases member
  induction above with
  | single child => exact edge child
  | tail _ child ih => exact Nat.lt_trans (edge child) ih

theorem shows_attach_of_ne (ne : node ≠ parent) (graph : Graph α) (child : Option NodeRef)
    (mark : Mark α) (children : List NodeRef) :
    (graph.attach parent child).Shows node mark children ↔ graph.Shows node mark children := by
  rw [Shows, Shows, vertex?_attach_of_ne ne]

/-- A node that a child is added to remembers nothing. -/
theorem kept?_attach_self (graph : Graph α) (parent child : NodeRef) :
    (graph.attach parent (some child)).kept? parent = none := by
  cases found : graph.vertices[parent.index]? with
  | none => simp [kept?, attach, vertex?, Array.getElem?_modify, found]
  | some vertex => simp [kept?, attach, vertex?, Array.getElem?_modify, found]

/-- All sizes stay right when a child is added to a node above which nothing is
remembered. -/
theorem Exact.attach (exact : graph.Exact fun _ => True)
    (idle : ∀ upper, graph.IsAbove upper parent → graph.kept? upper = none) :
    (graph.attach parent (some child)).Exact fun _ => True := by
  -- the nodes from which the parent cannot be reached are not touched
  have shows_before : Keeps (fun node => node ≠ parent ∧ ¬ graph.IsAbove node parent)
      (graph.attach parent (some child)) graph :=
    fun node mark children inside => (shows_attach_of_ne inside.1 _ _ _ _).1
  refine exact.transfer ?_ shows_before ?_
  · intro node mark children inside shows lower member
    have edge : lower ∈ graph.children node := by
      rwa [(shows_before _ _ _ inside shows).children_eq]
    refine ⟨?_, fun above => inside.2 (.head edge above)⟩
    rintro rfl
    exact inside.2 (.single edge)
  · intro node size kept
    have ne : node ≠ parent := by
      rintro rfl
      rw [kept?_attach_self] at kept
      cases kept
    rw [kept?, vertex?_attach_of_ne ne] at kept
    refine ⟨⟨ne, fun above => ?_⟩, kept⟩
    rw [← kept?, idle node above] at kept
    cases kept

end Formulary.Graph
