import Mathlib.Data.Finset.Card
import Mathlib.Data.Finset.Range
import Mathlib.Order.Monotone.Basic
import Formulary.Graph.Unfolding

/-!
# Nodes above finite trees

Below a node hangs a finite tree when every way down from it ends.  Unfolding
gives up on ways with more nodes than the graph.  This module shows that it never
gives up on a finite tree: the nodes unfolded with some fuel grow in number with
the fuel until no more are found, which is after as many steps as there are nodes.

Main results:

- Definition `Graph.Ends`: every way down from a node ends.
- Theorem `Graph.ends_iff`: a node has an expression exactly when every way down
  from it ends.
-/

namespace Formulary.Graph

variable {α : Type} {graph : Graph α} {node : NodeRef} {fuel : Nat}

/-- Every way down from a node ends: the node is there, and so it is with all its
children. -/
inductive Ends (graph : Graph α) : NodeRef → Prop
  | node {node : NodeRef} {vertex : Vertex α} (found : graph.vertex? node = some vertex)
      (children : ∀ child ∈ vertex.children, Ends graph child) : Ends graph node

/-- The expression below a node is found with the given fuel. -/
def EndsWithin (graph : Graph α) (fuel : Nat) (node : NodeRef) : Prop :=
  (graph.partWithin (fun _ count => count) fuel node).isSome

instance (graph : Graph α) (fuel : Nat) (node : NodeRef) :
    Decidable (graph.EndsWithin fuel node) :=
  inferInstanceAs (Decidable (_ = true))

/-! ## Fuel -/

/-- If every item has a result, they are the results of all in order. -/
theorem exists_results {β γ : Type} {f : β → Option γ} {items : List β}
    (each : ∀ item ∈ items, (f item).isSome) :
    ∃ results : List γ, items.map f = results.map some := by
  induction items with
  | nil => exact ⟨[], rfl⟩
  | cons item rest ih =>
    obtain ⟨others, rest_results⟩ := ih fun other member =>
      each other (List.mem_cons_of_mem _ member)
    obtain ⟨result, found⟩ := Option.isSome_iff_exists.1 (each item List.mem_cons_self)
    refine ⟨result :: others, ?_⟩
    rw [List.map_cons, List.map_cons, found, rest_results]

/-- A node takes one unit of fuel more than its children. -/
theorem endsWithin_succ_iff :
    graph.EndsWithin (fuel + 1) node ↔
      ∃ vertex, graph.vertex? node = some vertex ∧
        ∀ child ∈ vertex.children, graph.EndsWithin fuel child := by
  constructor
  · intro within
    obtain ⟨expr, unfolded⟩ := Option.isSome_iff_exists.1 within
    obtain ⟨vertex, children, found, -, below⟩ := exprWithin_succ unfolded
    refine ⟨vertex, found, ?_⟩
    intro child member
    have result : graph.partWithin (fun _ count => count) fuel child ∈ children.map some := by
      rw [← below]
      exact List.mem_map_of_mem member
    obtain ⟨expr, -, same⟩ := List.mem_map.1 result
    rw [EndsWithin, ← same]
    rfl
  · rintro ⟨vertex, found, below⟩
    obtain ⟨children, results⟩ := exists_results below
    rw [EndsWithin, partWithin, found, Option.bind_eq_bind, Option.bind_some]
    dsimp only
    rw [List.take_length, mapM_eq_some_iff.2 results]
    rfl

/-- More fuel does no harm. -/
theorem EndsWithin.succ (within : graph.EndsWithin fuel node) :
    graph.EndsWithin (fuel + 1) node := by
  induction fuel generalizing node with
  | zero => cases within
  | succ fuel ih =>
    obtain ⟨vertex, found, below⟩ := endsWithin_succ_iff.1 within
    exact endsWithin_succ_iff.2 ⟨vertex, found, fun child member => ih (below child member)⟩

theorem EndsWithin.mono (within : graph.EndsWithin fuel node) {more : Nat} (le : fuel ≤ more) :
    graph.EndsWithin more node := by
  induction le with
  | refl => exact within
  | step _ ih => exact ih.succ

/-- What is found with some fuel ends. -/
theorem EndsWithin.ends (within : graph.EndsWithin fuel node) : graph.Ends node := by
  induction fuel generalizing node with
  | zero => cases within
  | succ fuel ih =>
    obtain ⟨vertex, found, below⟩ := endsWithin_succ_iff.1 within
    exact .node found fun child member => ih (below child member)

/-- Some fuel serves all nodes of a list for each of which there is some. -/
theorem exists_common_fuel {nodes : List NodeRef}
    (each : ∀ node ∈ nodes, ∃ fuel, graph.EndsWithin fuel node) :
    ∃ fuel, ∀ node ∈ nodes, graph.EndsWithin fuel node := by
  induction nodes with
  | nil => exact ⟨0, fun node member => by cases member⟩
  | cons node rest ih =>
    obtain ⟨own, first⟩ := each node List.mem_cons_self
    obtain ⟨common, others⟩ := ih fun other member => each other (List.mem_cons_of_mem _ member)
    refine ⟨max own common, ?_⟩
    intro other member
    rcases List.mem_cons.1 member with rfl | member
    · exact first.mono (Nat.le_max_left own common)
    · exact (others other member).mono (Nat.le_max_right own common)

/-- What ends is found with enough fuel. -/
theorem Ends.exists_endsWithin (ends : graph.Ends node) : ∃ fuel, graph.EndsWithin fuel node := by
  induction ends with
  | @node node vertex found _ ih =>
    obtain ⟨fuel, children⟩ := exists_common_fuel ih
    exact ⟨fuel + 1, endsWithin_succ_iff.2 ⟨vertex, found, children⟩⟩

/-! ## Enough fuel -/

/-- The numbers of the nodes whose expressions are found with the given fuel. -/
def finished (graph : Graph α) (fuel : Nat) : Finset Nat :=
  (Finset.range graph.order).filter fun index => graph.EndsWithin fuel ⟨index⟩

theorem mem_finished_iff {index : Nat} :
    index ∈ graph.finished fuel ↔ graph.EndsWithin fuel ⟨index⟩ := by
  rw [finished, Finset.mem_filter, Finset.mem_range]
  constructor
  · exact fun member => member.2
  · intro within
    refine ⟨?_, within⟩
    cases within.ends with
    | node found _ =>
      obtain ⟨bound, -⟩ := Array.getElem?_eq_some_iff.1 found
      exact bound

theorem finished_mono (graph : Graph α) : Monotone graph.finished := by
  intro fuel more le index member
  exact mem_finished_iff.2 (EndsWithin.mono (mem_finished_iff.1 member) le)

/-- When one unit of fuel more finds nothing more, neither do two. -/
theorem finished_stable (still : graph.finished fuel = graph.finished (fuel + 1)) :
    graph.finished (fuel + 1) = graph.finished (fuel + 2) := by
  refine Finset.Subset.antisymm (finished_mono graph (Nat.le_succ _)) ?_
  intro index member
  obtain ⟨vertex, found, below⟩ :=
    endsWithin_succ_iff.1 (mem_finished_iff.1 member)
  refine mem_finished_iff.2 (endsWithin_succ_iff.2 ⟨vertex, found, ?_⟩)
  intro child inside
  have earlier : child.index ∈ graph.finished (fuel + 1) := mem_finished_iff.2 (below child inside)
  rw [← still] at earlier
  exact mem_finished_iff.1 earlier

/-- As much fuel as the graph has nodes is enough. -/
theorem EndsWithin.within_order (within : graph.EndsWithin fuel node) :
    graph.EndsWithin graph.order node := by
  have bounded : ∀ fuel, (graph.finished fuel).card ≤ graph.order := by
    intro fuel
    have le := Finset.card_filter_le (Finset.range graph.order)
      fun index => graph.EndsWithin fuel ⟨index⟩
    rw [Finset.card_range] at le
    exact le
  have stable : ∀ fuel, (graph.finished fuel).card = (graph.finished (fuel + 1)).card →
      (graph.finished (fuel + 1)).card = (graph.finished (fuel + 2)).card := by
    intro fuel same
    have still := Finset.eq_of_subset_of_card_le (finished_mono graph (Nat.le_succ fuel))
      (Nat.le_of_eq same.symm)
    rw [finished_stable still]
  have settled : (graph.finished (graph.order + fuel)).card = (graph.finished graph.order).card :=
    Nat.stabilises_of_monotone (fun _ _ le => Finset.card_le_card (finished_mono graph le)) bounded
      stable (Nat.le_add_right _ _)
  have all_found := Finset.eq_of_subset_of_card_le
    (finished_mono graph (Nat.le_add_right graph.order fuel)) (Nat.le_of_eq settled)
  have later : node.index ∈ graph.finished (graph.order + fuel) :=
    mem_finished_iff.2 (within.mono (Nat.le_add_left _ _))
  rw [← all_found] at later
  exact mem_finished_iff.1 later

/-- A node has an expression exactly when every way down from it ends. -/
theorem ends_iff : graph.Ends node ↔ ∃ expr, graph.expr? node = some expr := by
  constructor
  · intro ends
    obtain ⟨fuel, within⟩ := ends.exists_endsWithin
    exact Option.isSome_iff_exists.1 within.within_order
  · rintro ⟨expr, unfolded⟩
    have within : graph.EndsWithin graph.order node := Option.isSome_iff_exists.2 ⟨expr, unfolded⟩
    exact within.ends

end Formulary.Graph
