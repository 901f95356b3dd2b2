import Formulary.Expr.Nodes

/-!
# Graphs of nodes

Expressions are built node by node.  A node may be given to several parents, and
children may be added to it at any time, so what is built is a graph, which may
have cycles.

A node remembers its size once it was asked for, and forgets it only when a
child is added to that very node.

Main results:

- Definition `Graph.attach`: one child more for a node that is there already.
- Definition `Graph.size?`: the size that a node reports.
- Theorem `Graph.vertex?_attach_of_ne`: adding a child leaves the other nodes as
  they are.
-/

namespace Formulary

/-- The number of a node in a graph. -/
structure NodeRef where
  index : Nat
deriving DecidableEq, Repr

/-- A node of a graph: its mark, its children in order, and its size if it was
asked for. -/
structure Vertex (α : Type) where
  mark : Mark α
  children : List NodeRef
  size : Option Nat

/-- Nodes in the order in which they were made. -/
structure Graph (α : Type) where
  vertices : Array (Vertex α)

namespace Graph

variable {α : Type}

/-- The graph without nodes. -/
def empty : Graph α := ⟨#[]⟩

/-- The number of nodes of the graph. -/
def order (graph : Graph α) : Nat :=
  graph.vertices.size

/-- A node of the graph. -/
def vertex? (graph : Graph α) (node : NodeRef) : Option (Vertex α) :=
  graph.vertices[node.index]?

/-- The children of a node. -/
def children (graph : Graph α) (node : NodeRef) : List NodeRef :=
  match graph.vertex? node with
  | none => []
  | some vertex => vertex.children

/-! ## Building -/

/-- Adds a node over the given children. -/
def insert (graph : Graph α) (mark : Mark α) (children : List NodeRef) : NodeRef × Graph α :=
  (⟨graph.order⟩, ⟨graph.vertices.push ⟨mark, children, none⟩⟩)

/-- Adds a node over the given children, of which some may be absent. -/
def make (graph : Graph α) (mark : Mark α) (given : List (Option NodeRef)) :
    Except ConstructionError (NodeRef × Graph α) :=
  (mark.label.operands given).map (graph.insert mark)

/-- Gives a node one child more, and forgets its size.  An absent child changes
nothing. -/
def attach (graph : Graph α) (parent : NodeRef) (child : Option NodeRef) : Graph α :=
  match child with
  | none => graph
  | some child =>
    ⟨graph.vertices.modify parent.index fun vertex =>
      { vertex with children := vertex.children ++ [child], size := none }⟩

/-- The child at a place; negative places count from the end. -/
def child? (graph : Graph α) (node : NodeRef) (place : Int) : Option NodeRef :=
  let children := graph.children node
  let place := if place < 0 then place + children.length else place
  if place < 0 then none else children[place.toNat]?

/-! ## Sizes -/

/-- Stores the size of a node. -/
def remember (graph : Graph α) (node : NodeRef) (size : Nat) : Graph α :=
  ⟨graph.vertices.modify node.index fun vertex => { vertex with size := some size }⟩

/-- The size that a node reports, and the graph in which it is remembered, if
every way down to a remembered size has at most `fuel` nodes. -/
def sizeWithin : Nat → Graph α → NodeRef → Option (Nat × Graph α)
  | 0, _, _ => none
  | fuel + 1, graph, node => do
    let vertex ← graph.vertex? node
    match vertex.size with
    | some size => return (size, graph)
    | none =>
      let (below, graph) ← vertex.children.foldlM (fun (below, graph) child => do
        let (size, graph) ← sizeWithin fuel graph child
        return (below + size, graph)) (0, graph)
      let size := 1 + below
      return (size, graph.remember node size)

/-- The size that a node reports: the one that it remembers, or one more than
its children report.  All sizes found on the way are remembered. -/
def size? (graph : Graph α) (node : NodeRef) : Option (Nat × Graph α) :=
  sizeWithin graph.order graph node

/-- The node stands for a reduction of several arguments. -/
def isSplittable (graph : Graph α) (node : NodeRef) : Bool :=
  match graph.vertex? node with
  | none => false
  | some vertex => vertex.mark.label.kind == .reduction && decide (1 < vertex.children.length)

/-! ## Small laws -/

@[simp]
theorem order_insert (graph : Graph α) (mark : Mark α) (children : List NodeRef) :
    (graph.insert mark children).2.order = graph.order + 1 := by
  simp [insert, order]

/-- A new node has its mark and its children, and no size. -/
@[simp]
theorem vertex?_insert_self (graph : Graph α) (mark : Mark α) (children : List NodeRef) :
    (graph.insert mark children).2.vertex? (graph.insert mark children).1 =
      some ⟨mark, children, none⟩ := by
  simp [insert, vertex?, order]

/-- The older nodes stay as they are. -/
theorem vertex?_insert_of_lt {graph : Graph α} {node : NodeRef} (h : node.index < graph.order)
    (mark : Mark α) (children : List NodeRef) :
    (graph.insert mark children).2.vertex? node = graph.vertex? node := by
  have hne : node.index ≠ graph.vertices.size := Nat.ne_of_lt h
  simp [insert, vertex?, Array.getElem?_push, hne]

/-- An absent child changes nothing. -/
@[simp]
theorem attach_none (graph : Graph α) (parent : NodeRef) : graph.attach parent none = graph :=
  rfl

/-- Adding a child leaves all other nodes as they are. -/
theorem vertex?_attach_of_ne {parent node : NodeRef} (h : node ≠ parent) (graph : Graph α)
    (child : Option NodeRef) : (graph.attach parent child).vertex? node = graph.vertex? node := by
  cases child with
  | none => rfl
  | some child =>
    have hne : parent.index ≠ node.index := by
      intro same
      apply h
      cases node
      cases parent
      simp_all
    simp [attach, vertex?, Array.getElem?_modify, hne]

end Graph

end Formulary
