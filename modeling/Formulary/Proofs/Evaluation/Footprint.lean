import Formulary.Proofs.Evaluation.Leaves
import Formulary.Proofs.Evaluation.Steps

/-!
# The footprint of an evaluation

Operations write their values into buffers that they did not make.  This module
says which buffers of a domain an evaluation may overwrite, whether it succeeds
or fails, and in which buffer its value is.

Main results:

- Definition `Expr.Reaches`: the nodes to which an evaluation gets before it
  fails or ends.
- Definition `Expr.Framed`: what an evaluation may change, and whose buffer it
  returns.
- Theorem `Expr.framed_of_apply`: every evaluation is framed.
-/

namespace Formulary

variable {α : Type}

/-! ## The buffer of a value -/

namespace Domain

/-- The buffer that an expression yields is lent for the variable at its first
leaf, or it was not in the store and the first leaf is a variable that is copied
or a constant. -/
inductive Yields (domain : Domain) (expr : Expr α) (store : Store α) (buffer : Buffer) : Prop
  | own {name : String} (leaf : expr.firstLeaf? = some (.var name))
      (lends : domain.lent? name = some buffer)
  | copy {name : String} {kept : Buffer} (leaf : expr.firstLeaf? = some (.var name))
      (bound : domain.bindings.find? name = some kept) (keeps : domain.lent? name = none)
      (fresh : ¬store.Has buffer)
  | constant {value : α} (leaf : expr.firstLeaf? = some (.const value))
      (fresh : ¬store.Has buffer)

theorem Yields.of_firstLeaf? {domain : Domain} {expr other : Expr α} {store : Store α}
    {buffer : Buffer} (yields : domain.Yields expr store buffer)
    (same : other.firstLeaf? = expr.firstLeaf?) : domain.Yields other store buffer := by
  cases yields with
  | own leaf lends => exact .own (same.trans leaf) lends
  | copy leaf bound keeps fresh => exact .copy (same.trans leaf) bound keeps fresh
  | constant leaf fresh => exact .constant (same.trans leaf) fresh

end Domain

namespace Expr

variable [Scalar α]

/-! ## Nodes that evaluation gets to -/

/-- Evaluation of an expression from a store gets to a node: to the root, and to
the nodes below a child that is used, provided that the node has enough children
and that those before the child are evaluated without a failure. -/
inductive Reaches (domain : Domain) : Expr α → Store α → Expr α → Prop
  | root (expr : Expr α) (store : Store α) : Reaches domain expr store expr
  | child {mark : Mark α} {operation : Operation} {children before rest : List (Expr α)}
      {child node : Expr α} {store between : Store α} {buffers : List Buffer}
      (label : mark.label = .op operation)
      (enough : mark.checkArity children.length = .ok ())
      (used : children.take (operation.used children.length) = before ++ child :: rest)
      (done : (evaluateEach domain before).apply store = (.ok buffers, between))
      (below : Reaches domain child between node) :
      Reaches domain (Tree.node mark children) store node

/-- Evaluation gets only to nodes of the part that is evaluated. -/
theorem Reaches.mem_evaluatedNodes {domain : Domain} {expr node : Expr α} {store : Store α}
    (reaches : Reaches domain expr store node) : node.evaluatedPart ∈ expr.evaluatedNodes := by
  induction reaches with
  | root expr store =>
    cases expr
    rw [evaluatedNodes_node]
    exact List.mem_cons_self
  | @child mark operation children before rest child node store between buffers label _ used _ _
      ih =>
    rw [evaluatedNodes_node, label]
    refine List.mem_cons_of_mem _ (List.mem_flatMap.2 ⟨child, ?_, ih⟩)
    rw [Label.used, used]
    exact List.mem_append_right before List.mem_cons_self

/-- Evaluation of an expression may overwrite a buffer of the domain when it gets
to an operation at whose first leaf that buffer is lent. -/
def Overwrites (domain : Domain) (expr : Expr α) (store : Store α) (buffer : Buffer) : Prop :=
  ∃ node name, Reaches domain expr store node ∧ node.writtenName? = some name ∧
    domain.lent? name = some buffer

/-- The variables into which the nodes reached are written are written by the
expression. -/
theorem Reaches.mem_writtenNames {domain : Domain} {expr node : Expr α} {store : Store α}
    (reaches : Reaches domain expr store node) {name : String}
    (written : node.writtenName? = some name) : name ∈ expr.writtenNames := by
  refine List.mem_filterMap.2 ⟨node.evaluatedPart, reaches.mem_evaluatedNodes, ?_⟩
  rw [writtenName?_evaluatedPart, written]

/-- What is overwritten is lent for a variable that the expression writes into. -/
theorem Overwrites.exists_writtenName {domain : Domain} {expr : Expr α} {store : Store α}
    {buffer : Buffer} (overwrites : Overwrites domain expr store buffer) :
    ∃ name ∈ expr.writtenNames, domain.lent? name = some buffer := by
  obtain ⟨node, name, reaches, written, lends⟩ := overwrites
  exact ⟨name, reaches.mem_writtenNames written, lends⟩

/-- Evaluation of expressions from left to right may overwrite what evaluation of
one of them may overwrite in the store that those before it leave. -/
def OverwritesEach (domain : Domain) (exprs : List (Expr α)) (store : Store α)
    (buffer : Buffer) : Prop :=
  ∃ before child rest buffers between, exprs = before ++ child :: rest ∧
    (evaluateEach domain before).apply store = (.ok buffers, between) ∧
    Overwrites domain child between buffer

/-- What an operation's arguments overwrite the operation overwrites. -/
theorem Overwrites.of_each {domain : Domain} {mark : Mark α} {operation : Operation}
    {children : List (Expr α)} {store : Store α} {buffer : Buffer}
    (label : mark.label = .op operation) (enough : mark.checkArity children.length = .ok ())
    (overwrites : OverwritesEach domain (children.take (operation.used children.length)) store
      buffer) :
    Overwrites domain (Tree.node mark children) store buffer := by
  obtain ⟨before, child, rest, buffers, between, used, done, node, name, reaches, written, lends⟩ :=
    overwrites
  exact ⟨node, name, .child label enough used done reaches, written, lends⟩

/-- The first of several expressions is evaluated in the first store. -/
theorem OverwritesEach.head {domain : Domain} {expr : Expr α} {store : Store α} {buffer : Buffer}
    (overwrites : Overwrites domain expr store buffer) (more : List (Expr α)) :
    OverwritesEach domain (expr :: more) store buffer :=
  ⟨[], expr, more, [], store, rfl, rfl, overwrites⟩

/-- The others are evaluated in the store that the first one leaves. -/
theorem OverwritesEach.tail {domain : Domain} {expr : Expr α} {more : List (Expr α)}
    {store between : Store α} {first buffer : Buffer}
    (run : (evaluate domain expr).apply store = (.ok first, between))
    (overwrites : OverwritesEach domain more between buffer) :
    OverwritesEach domain (expr :: more) store buffer := by
  obtain ⟨before, child, rest, buffers, later, split, done, overwritten⟩ := overwrites
  refine ⟨expr :: before, child, rest, first :: buffers, later, ?_, ?_, overwritten⟩
  · rw [split, List.cons_append]
  · unfold evaluateEach at done
    rw [evaluateEach, List.map_cons, EvalM.apply_inSequence_of_ok run, done]
    rfl

/-! ## Frames -/

/-- What an evaluation may do to the store, and the buffer that it returns. -/
structure Framed (domain : Domain) (expr : Expr α) (store : Store α)
    (result : Except EvalError Buffer) (after : Store α) : Prop where
  changes : Store.ChangesOnly (Overwrites domain expr store) store after
  present : ∀ buffer, result = .ok buffer → after.Has buffer
  yields : ∀ buffer, result = .ok buffer → domain.Yields expr store buffer

/-- What the evaluation of several expressions may do to the store, and the
buffers that it returns. -/
structure FramedEach (domain : Domain) (exprs : List (Expr α)) (store : Store α)
    (result : Except EvalError (List Buffer)) (after : Store α) : Prop where
  changes : Store.ChangesOnly (OverwritesEach domain exprs store) store after
  present : ∀ buffers, result = .ok buffers → ∀ buffer ∈ buffers, after.Has buffer
  yields : ∀ expr more first rest, exprs = expr :: more → result = .ok (first :: rest) →
    domain.Yields expr store first

/-- A failure returns no buffer. -/
theorem Framed.of_error {domain : Domain} {expr : Expr α} {store after : Store α}
    (changes : Store.ChangesOnly (Overwrites domain expr store) store after) (error : EvalError) :
    Framed domain expr store (.error error) after where
  changes := changes
  present := fun buffer wrong => by cases wrong
  yields := fun buffer wrong => by cases wrong

theorem FramedEach.of_error {domain : Domain} {exprs : List (Expr α)} {store after : Store α}
    (changes : Store.ChangesOnly (OverwritesEach domain exprs store) store after)
    (error : EvalError) : FramedEach domain exprs store (.error error) after where
  changes := changes
  present := fun buffers wrong => by cases wrong
  yields := fun expr more first rest _ wrong => by cases wrong

theorem Framed.of_alloc {domain : Domain} {expr : Expr α} {store : Store α} {row : List α}
    (yields : domain.Yields expr store (store.alloc row).1) :
    Framed domain expr store (.ok (store.alloc row).1) (store.alloc row).2 where
  changes := .alloc _ store row
  present := by
    intro buffer returned
    cases returned
    exact store.has_alloc row
  yields := by
    intro buffer returned
    cases returned
    exact yields

/-- Framed evaluations one after another are framed. -/
theorem framedEach_of_apply {domain : Domain} {exprs : List (Expr α)}
    (each : ∀ expr ∈ exprs, ∀ store, domain.LivesIn store → ∀ result after,
      (evaluate domain expr).apply store = (result, after) →
        Framed domain expr store result after)
    {store after : Store α} (lives : domain.LivesIn store)
    {result : Except EvalError (List Buffer)}
    (run : (evaluateEach domain exprs).apply store = (result, after)) :
    FramedEach domain exprs store result after := by
  induction exprs generalizing store after result with
  | nil =>
    cases run
    refine ⟨.refl _ store, ?_, ?_⟩
    · intro buffers returned buffer member
      cases returned
      cases member
    · intro expr more first rest wrong
      cases wrong
  | cons expr more ih =>
    rcases evaluateEach_cons_cases run with
      ⟨error, head, rfl⟩ | ⟨first, between, others, head, tail, rfl⟩
    · have framed := each expr List.mem_cons_self store lives _ _ head
      exact .of_error (framed.changes.mono fun buffer h => .head h more) error
    · have framed := each expr List.mem_cons_self store lives _ _ head
      have below := ih (fun other member => each other (List.mem_cons_of_mem _ member))
        (lives.later framed.changes) tail
      have changes : Store.ChangesOnly (OverwritesEach domain (expr :: more) store) store after :=
        (framed.changes.mono fun buffer h => .head h more).trans
          (below.changes.mono fun buffer h => .tail head h)
      cases others with
      | error error => exact .of_error changes error
      | ok buffers =>
        refine ⟨changes, ?_, ?_⟩
        · intro all returned buffer member
          cases returned
          rcases List.mem_cons.1 member with rfl | member
          · exact below.changes.has (framed.present _ rfl)
          · exact below.present buffers rfl buffer member
        · intro expr more first rest same returned
          cases same
          cases returned
          exact framed.yields _ rfl

/-- An operation yields the buffer of its first argument, which is that of its
first leaf. -/
theorem yields_of_framedEach {domain : Domain} {mark : Mark α} {operation : Operation}
    {children : List (Expr α)} {store between : Store α} {first : Buffer} {rest : List Buffer}
    (label : mark.label = .op operation) (enough : mark.checkArity children.length = .ok ())
    (framed : FramedEach domain (children.take (operation.used children.length)) store
      (.ok (first :: rest)) between) :
    domain.Yields (Tree.node mark children) store first := by
  cases children with
  | nil =>
    rw [Mark.checkArity_eq_ok_iff, label] at enough
    exact absurd enough (Nat.not_le_of_gt operation.arity_pos)
  | cons child others =>
    have inner : mark.label.isLeaf = false := by
      rw [label]
      rfl
    obtain ⟨more, used⟩ := Label.take_used_cons inner child others
    rw [label] at used
    exact (framed.yields child more first rest used rfl).of_firstLeaf?
      (firstLeaf?_of_op label child others)

/-- Every evaluation is framed. -/
theorem framed_of_apply {domain : Domain} (expr : Expr α) {store after : Store α}
    (lives : domain.LivesIn store) {result : Except EvalError Buffer}
    (run : (evaluate domain expr).apply store = (result, after)) :
    Framed domain expr store result after := by
  induction expr using Tree.induct generalizing store after result with
  | step mark children ih =>
    have arguments : ∀ {operation : Operation} {result : Except EvalError (List Buffer)}
        {after : Store α},
        (evaluateEach domain (children.take (operation.used children.length))).apply store =
          (result, after) →
        FramedEach domain (children.take (operation.used children.length)) store result after := by
      intro operation result after done
      refine framedEach_of_apply ?_ lives done
      intro child member store lives result after run
      exact ih child (List.mem_of_mem_take member) lives run
    have own_leaf : mark.label.isLeaf = true →
        firstLeaf? (Tree.node mark children) = some mark.label :=
      fun leaf => firstLeaf?_of_isLeaf leaf children
    cases nodeRun_of_apply run with
    | constant label made =>
      rw [label] at own_leaf
      exact .of_alloc (.constant (own_leaf rfl) (store.not_has_alloc _))
    | noConstant label failed => exact .of_error (.refl _ store) _
    | unbound label free => exact .of_error (.refl _ store) _
    | copied label bound kept =>
      rw [label] at own_leaf
      exact .of_alloc (.copy (own_leaf rfl) bound kept (store.not_has_alloc _))
    | lent label lends =>
      rw [label] at own_leaf
      refine ⟨.refl _ store, ?_, ?_⟩
      · intro other returned
        cases returned
        exact lives.has (Domain.find?_of_lent? lends)
      · intro other returned
        cases returned
        exact .own (own_leaf rfl) lends
    | tooFew label few => exact .of_error (.refl _ store) _
    | argument label enough failed =>
      exact .of_error ((arguments failed).changes.mono fun buffer => .of_each label enough) _
    | unequal label enough done differ =>
      exact .of_error ((arguments done).changes.mono fun buffer => .of_each label enough) _
    | @written operation first rest between label enough done agree =>
      have framed := arguments done
      have present : between.Has first := framed.present _ rfl first List.mem_cons_self
      have yields := yields_of_framedEach label enough framed
      have same := length_combine_of_checkLengths
        (by simpa using arity_le_length_buffers label enough done) agree
      refine ⟨?_, ?_, ?_⟩
      · refine (framed.changes.mono fun buffer => .of_each label enough).write present ?_ same
        intro old
        cases yields with
        | @own name leaf lends =>
          refine ⟨_, name, .root _ store, ?_, lends⟩
          rw [writtenName?, Tree.value_node, label, firstVariable?, leaf]
          rfl
        | copy leaf bound keeps fresh => exact absurd old fresh
        | constant leaf fresh => exact absurd old fresh
      · intro buffer returned
        cases returned
        exact (between.has_write first first _).2 present
      · intro buffer returned
        cases returned
        exact yields

/-- Evaluations of several expressions one after another are framed. -/
theorem framedEach {domain : Domain} {exprs : List (Expr α)} {store after : Store α}
    (lives : domain.LivesIn store) {result : Except EvalError (List Buffer)}
    (run : (evaluateEach domain exprs).apply store = (result, after)) :
    FramedEach domain exprs store result after := by
  refine framedEach_of_apply ?_ lives run
  intro expr _ store lives result after run
  exact framed_of_apply expr lives run

/-- Over copies an evaluation only adds buffers. -/
theorem changesOnly_copying {bindings : Bindings Buffer} {count : Int} {expr : Expr α}
    {store after : Store α} {result : Except EvalError Buffer}
    (framed : Framed (.copying bindings count) expr store result after) :
    Store.ChangesOnly (fun _ => False) store after := by
  refine framed.changes.mono ?_
  rintro buffer ⟨node, name, -, -, lends⟩
  cases lends

/-- Over copies the value is in a new buffer. -/
theorem not_has_copying {bindings : Bindings Buffer} {count : Int} {expr : Expr α}
    {store after : Store α} {buffer : Buffer}
    (framed : Framed (.copying bindings count) expr store (.ok buffer) after) :
    ¬store.Has buffer := by
  cases framed.yields buffer rfl with
  | own leaf lends => cases lends
  | copy leaf bound keeps fresh => exact fresh
  | constant leaf fresh => exact fresh

/-- What evaluations of several expressions overwrite is lent for a variable that
one of them writes into. -/
theorem OverwritesEach.exists_writtenName {domain : Domain} {exprs : List (Expr α)}
    {store : Store α} {buffer : Buffer} (overwrites : OverwritesEach domain exprs store buffer) :
    ∃ name ∈ exprs.flatMap writtenNames, domain.lent? name = some buffer := by
  obtain ⟨before, child, rest, buffers, between, split, _, overwritten⟩ := overwrites
  obtain ⟨name, written, lends⟩ := overwritten.exists_writtenName
  refine ⟨name, List.mem_flatMap.2 ⟨child, ?_, written⟩, lends⟩
  rw [split]
  exact List.mem_append_right before List.mem_cons_self

end Expr

end Formulary
