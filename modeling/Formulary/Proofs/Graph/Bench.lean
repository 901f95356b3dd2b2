import Formulary.Graph.Handle
import Formulary.Proofs.Graph.Copies

/-!
# Work on a graph

Expressions are built, read, evaluated and copied in any order, by their nodes and by
handles on them.  This module says what each of these calls does to the graph.  Only a
child that is added to a node changes what is read, and only above that node; so a node
and its copy never have to do with each other again.

Main results:

- Definition `Bench.perform`: what a call answers and changes.
- Theorem `Bench.edit_perform`: a call leaves the graph alone, adds nodes, adds a child,
  or remembers sizes.
- Theorem `Bench.keeps_performAll`: a side to which no call adds a child keeps its marks
  and children.
- Theorem `Graph.exists_independent_copy`: a copy is read as its original is, and what is
  done with the one is not seen at the other.
-/

namespace Formulary

/-- A node, or the number of a handle on one. -/
inductive Subject
  | node (node : NodeRef)
  | handle (number : Nat)

/-- What can be asked for. -/
inductive Call
  /-- A new node over the given children. -/
  | make (mark : Mark Float) (given : List (Option NodeRef))
  /-- One child more for a node. -/
  | attach (parent : NodeRef) (child : Option NodeRef)
  /-- The child at a place. -/
  | child (node : NodeRef) (place : Int)
  /-- A new handle on a node. -/
  | wrap (node : NodeRef)
  /-- The node of a handle. -/
  | root (number : Nat)
  /-- The size. -/
  | size (subject : Subject)
  /-- The text. -/
  | text (subject : Subject)
  /-- Whether there are several arguments of a reduction. -/
  | splits (subject : Subject)
  /-- The value over a domain. -/
  | evaluate (domain : Domain) (subject : Subject)
  /-- A copy, of a handle as a handle. -/
  | copy (subject : Subject)
  /-- The text of a handle is to be forgotten. -/
  | clear (number : Nat)

/-- The node to which a call adds a child. -/
def Call.target? : Call → Option NodeRef
  | .attach parent (some _) => some parent
  | _ => none

/-- What is answered.  There is nothing to answer where a node or a handle is missing, or
where a way down has no end. -/
inductive Reply
  | done
  | nothing
  | refused (error : ConstructionError)
  | node (node : NodeRef)
  | handle (number : Nat)
  | size (size : Nat)
  | text (text : String)
  | truth (holds : Bool)
  | row (result : Except EvalError (List Float))

/-- A graph with handles on its nodes, and the buffers of all domains. -/
structure Bench where
  graph : Graph Float
  handles : List Handle
  store : Store Float

namespace Bench

/-- The bench without nodes. -/
def empty : Bench := ⟨.empty, [], .empty⟩

/-! ## Calls -/

/-- The node that is meant. -/
def root? (bench : Bench) : Subject → Option NodeRef
  | .node node => some node
  | .handle number => bench.handles[number]?.map Handle.root

/-- Makes a node. -/
def make (bench : Bench) (mark : Mark Float) (given : List (Option NodeRef)) : Reply × Bench :=
  match bench.graph.make mark given with
  | .error error => (.refused error, bench)
  | .ok (node, graph) => (.node node, { bench with graph := graph })

/-- Asks a node for its size; sizes are remembered on the way. -/
def size (bench : Bench) (subject : Subject) : Reply × Bench :=
  match (bench.root? subject).bind bench.graph.size? with
  | none => (.nothing, bench)
  | some (size, graph) => (.size size, { bench with graph := graph })

/-- Asks for a text; a handle keeps it. -/
def text (bench : Bench) : Subject → Reply × Bench
  | .node node =>
    match bench.graph.text? node with
    | none => (.nothing, bench)
    | some text => (.text text, bench)
  | .handle number =>
    match bench.handles[number]?.bind (Handle.text? bench.graph) with
    | none => (.nothing, bench)
    | some (text, handle) => (.text text, { bench with handles := bench.handles.set number handle })

/-- Evaluates a node; what is written into buffers stays. -/
def evaluate (bench : Bench) (domain : Domain) (subject : Subject) : Reply × Bench :=
  match bench.root? subject with
  | none => (.nothing, bench)
  | some node =>
    let (result, store) := (bench.graph.evaluate domain node).apply bench.store
    (.row (result.map store.read), { bench with store := store })

/-- Copies a node, or a handle with its node. -/
def copy (bench : Bench) : Subject → Reply × Bench
  | .node node =>
    match bench.graph.copy? node with
    | none => (.nothing, bench)
    | some (root, graph) => (.node root, { bench with graph := graph })
  | .handle number =>
    match bench.handles[number]?.bind (Handle.copy? bench.graph) with
    | none => (.nothing, bench)
    | some (handle, graph) =>
      (.handle bench.handles.length,
        { bench with graph := graph, handles := bench.handles ++ [handle] })

/-- Answers a call. -/
def perform (bench : Bench) : Call → Reply × Bench
  | .make mark given => bench.make mark given
  | .attach parent child => (.done, { bench with graph := bench.graph.attach parent child })
  | .child node place => ((bench.graph.child? node place).elim .nothing .node, bench)
  | .wrap node =>
    (.handle bench.handles.length, { bench with handles := bench.handles ++ [Handle.wrap node] })
  | .root number => ((bench.root? (.handle number)).elim .nothing .node, bench)
  | .size subject => bench.size subject
  | .text subject => bench.text subject
  | .splits subject =>
    ((bench.root? subject).elim .nothing fun node => .truth (bench.graph.isSplittable node), bench)
  | .evaluate domain subject => bench.evaluate domain subject
  | .copy subject => bench.copy subject
  | .clear number => (.done, { bench with handles := bench.handles.modify number Handle.clear })

/-- The bench after calls one after another. -/
def performAll (bench : Bench) (calls : List Call) : Bench :=
  calls.foldl (fun bench call => (bench.perform call).2) bench

@[simp]
theorem performAll_cons (bench : Bench) (call : Call) (rest : List Call) :
    bench.performAll (call :: rest) = (bench.perform call).2.performAll rest :=
  rfl

/-! ## What calls do to the graph -/

/-- What a call may do to the graph: nothing, add nodes that remember nothing, add a child
as it was asked to, or remember sizes. -/
inductive Edit (call : Call) (before : Graph Float) : Graph Float → Prop
  | nothing : Edit call before before
  | extend {after : Graph Float} (grown : before.Extends after) : Edit call before after
  | attach {parent child : NodeRef} (asked : call = .attach parent (some child)) :
    Edit call before (before.attach parent (some child))
  | count {node : NodeRef} {size : Nat} {after : Graph Float}
    (counted : before.size? node = some (size, after)) : Edit call before after

theorem edit_make (bench : Bench) (mark : Mark Float) (given : List (Option NodeRef)) :
    Edit (.make mark given) bench.graph (bench.make mark given).2.graph := by
  rw [make, Graph.make]
  cases mark.label.operands given with
  | error error => exact .nothing
  | ok children => exact .extend (Graph.extends_insert _ _ _)

theorem edit_size (bench : Bench) (subject : Subject) :
    Edit (.size subject) bench.graph (bench.size subject).2.graph := by
  rw [size]
  cases asked : (bench.root? subject).bind bench.graph.size? with
  | none => exact .nothing
  | some answer =>
    obtain ⟨node, -, counted⟩ := Option.bind_eq_some_iff.1 asked
    exact .count counted

theorem edit_text (bench : Bench) (subject : Subject) :
    Edit (.text subject) bench.graph (bench.text subject).2.graph := by
  cases subject with
  | node node =>
    rw [text]
    cases bench.graph.text? node <;> exact .nothing
  | handle number =>
    rw [text]
    cases bench.handles[number]?.bind (Handle.text? bench.graph) <;> exact .nothing

theorem edit_evaluate (bench : Bench) (domain : Domain) (subject : Subject) :
    Edit (.evaluate domain subject) bench.graph (bench.evaluate domain subject).2.graph := by
  rw [evaluate]
  cases bench.root? subject <;> exact .nothing

theorem edit_copy (bench : Bench) (subject : Subject) :
    Edit (.copy subject) bench.graph (bench.copy subject).2.graph := by
  cases subject with
  | node node =>
    rw [copy]
    cases copied : bench.graph.copy? node with
    | none => exact .nothing
    | some answer => exact .extend (Graph.extends_of_copy? copied)
  | handle number =>
    rw [copy]
    cases asked : bench.handles[number]?.bind (Handle.copy? bench.graph) with
    | none => exact .nothing
    | some answer =>
      obtain ⟨handle, -, made⟩ := Option.bind_eq_some_iff.1 asked
      obtain ⟨⟨root, after⟩, copied, rfl⟩ := Option.map_eq_some_iff.1 made
      exact .extend (Graph.extends_of_copy? copied)

/-- A call leaves the graph alone, adds nodes, adds a child, or remembers sizes. -/
theorem edit_perform (bench : Bench) (call : Call) :
    Edit call bench.graph (bench.perform call).2.graph := by
  cases call with
  | make mark given => exact edit_make bench mark given
  | attach parent child =>
    cases child with
    | none => exact .nothing
    | some child => exact .attach rfl
  | child node place => exact .nothing
  | wrap node => exact .nothing
  | root number => exact .nothing
  | size subject => exact edit_size bench subject
  | text subject => exact edit_text bench subject
  | splits subject => exact .nothing
  | evaluate domain subject => exact edit_evaluate bench domain subject
  | copy subject => exact edit_copy bench subject
  | clear number => exact .nothing

/-! ## Sides that are left alone -/

variable {side : NodeRef → Prop}

/-- What a call does to the graph is not seen on a side to which it adds no child. -/
theorem Edit.keeps {call : Call} {before after : Graph Float} (edit : Edit call before after)
    (apart : ∀ target, call.target? = some target → ¬ side target) :
    Graph.Keeps side before after := by
  cases edit with
  | nothing => exact .refl side before
  | extend grown => exact grown.keeps side
  | @attach parent child asked =>
    intro node mark children inside shows
    have ne : node ≠ parent := by
      rintro rfl
      exact apart node (by rw [asked]; rfl) inside
    exact (Graph.shows_attach_of_ne ne _ _ _ _).2 shows
  | count counted => exact (Graph.sameShape_of_size? counted).keeps side

/-- A side to which no call adds a child keeps its marks and children. -/
theorem keeps_performAll {calls : List Call}
    (apart : ∀ call ∈ calls, ∀ target, call.target? = some target → ¬ side target)
    (bench : Bench) : Graph.Keeps side bench.graph (bench.performAll calls).graph := by
  induction calls generalizing bench with
  | nil => exact .refl side _
  | cons call rest ih =>
    rw [performAll_cons]
    refine ((edit_perform bench call).keeps (apart call List.mem_cons_self)).trans ?_
    exact ih (fun other member => apart other (List.mem_cons_of_mem _ member)) _

end Bench

namespace Graph

/-! ## Copies and their originals -/

/-- In a graph without cycles every node can be copied, whatever the nodes remember.  The
copy is read as the node is and consists of new nodes, each of which occurs once.
Whatever is done later, nothing is read differently at the old nodes unless a child is
added to one of them, and nothing is read differently at the nodes of the copy unless a
child is added to one of those. -/
theorem exists_independent_copy {graph : Graph Float} (acyclic : graph.Acyclic) {node : NodeRef}
    (present : node.index < graph.order) :
    ∃ expr root after copies, graph.copy? node = some (root, after) ∧
      IsCopy graph after node root expr copies ∧
      ∀ (bench : Bench) (calls : List Call), bench.graph = after →
        ((∀ call ∈ calls, ∀ target, call.target? = some target → graph.order ≤ target.index) →
          ∀ old : NodeRef, old.index < graph.order →
            SameReadings graph (bench.performAll calls).graph old) ∧
        ((∀ call ∈ calls, ∀ target, call.target? = some target → target ∉ copies) →
          ∀ copy ∈ copies, SameReadings after (bench.performAll calls).graph copy) := by
  obtain ⟨expr, root, after, copies, copied, is_copy⟩ := exists_isCopy (acyclic node present)
  refine ⟨expr, root, after, copies, copied, is_copy, ?_⟩
  rintro bench calls rfl
  constructor
  · intro apart old inside
    have later : Keeps (fun node => node.index < graph.order) bench.graph
        (bench.performAll calls).graph :=
      Bench.keeps_performAll (fun call member target asked =>
        Nat.not_lt_of_le (apart call member target asked)) bench
    have keeps := ((extends_of_copy? copied).keeps _).trans later
    exact .of_keeps acyclic.isClosed keeps inside (acyclic old inside)
  · intro apart copy member
    have keeps : Keeps (· ∈ copies) bench.graph (bench.performAll calls).graph :=
      Bench.keeps_performAll apart bench
    obtain ⟨tree, unfolded, rfl⟩ := Option.map_eq_some_iff.1 is_copy.nodes
    obtain ⟨-, unfolds⟩ := unfolding?_eq_some_iff.1 unfolded
    obtain ⟨inner, listed, rfl⟩ := Unfolding.mem_nodes_iff.1 member
    exact .of_keeps (unfolds.isClosed _) keeps member (unfolds.inner listed).ends

/-- A product of a node with itself.  That node is a variable with a child, and two nodes
remember sizes that are wrong. -/
def tangled : Graph Float :=
  ⟨#[⟨⟨.var "y", none⟩, [], none⟩, ⟨⟨.var "x", none⟩, [⟨0⟩], some 7⟩,
    ⟨⟨.op (.binary .mul), some (.text "square")⟩, [⟨1⟩, ⟨1⟩], some 1⟩]⟩

/-- The product is copied to three new nodes, and the copy has the size three.  A child
that the copy gets is not seen at the product. -/
theorem exists_independent_copy_tangled :
    tangled.Acyclic ∧ 2 < tangled.order ∧
      ∃ after copies, tangled.copy? ⟨2⟩ = some (⟨5⟩, after) ∧
        after.nodes? .depthFirst ⟨5⟩ = some copies ∧ copies.Nodup ∧
        (∀ copy ∈ copies, 3 ≤ copy.index) ∧ after.text? ⟨5⟩ = some "(x * x)" ∧
        (∃ counted, after.size? ⟨5⟩ = some (3, counted)) ∧
        SameReadings tangled (after.attach ⟨5⟩ (some ⟨0⟩)) ⟨2⟩ := by
  have acyclic : tangled.Acyclic := acyclic_of_descends (by decide)
  refine ⟨acyclic, by decide, ?_⟩
  obtain ⟨expr, root, after, copies, copied, is_copy, apart⟩ :=
    exists_independent_copy acyclic (show (⟨2⟩ : NodeRef).index < tangled.order by decide)
  have first : (tangled.copy? ⟨2⟩).map Prod.fst = some ⟨5⟩ := rfl
  have three : ((tangled.copy? ⟨2⟩).bind fun copy => copy.2.size? copy.1).map Prod.fst = some 3 :=
    rfl
  have text : tangled.text? ⟨2⟩ = some "(x * x)" := rfl
  rw [copied, Option.map_some] at first
  cases first
  obtain ⟨counted, sized⟩ := is_copy.size
  rw [copied, Option.bind_some, sized] at three
  have count : copies.length = 3 := Option.some.inj three
  refine ⟨after, copies, copied, is_copy.nodes, is_copy.distinct, is_copy.fresh, ?_, ?_, ?_⟩
  · rw [is_copy.text.2, ← is_copy.text.1, text]
  · exact ⟨counted, by rw [sized, count]⟩
  · refine (apart ⟨after, [], .empty⟩ [.attach ⟨5⟩ (some ⟨0⟩)] rfl).1 ?_ ⟨2⟩ (by decide)
    intro call member target asked
    obtain rfl := List.mem_singleton.1 member
    cases asked
    decide

end Graph

end Formulary
