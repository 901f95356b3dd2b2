import Formulary.Proofs.Domain.Agreement
import Formulary.Proofs.Evaluation.Lengths
import Formulary.Proofs.Evaluation.Refinement

/-!
# Evaluation over shared buffers

A sharing domain hands out the buffers in which it keeps its rows.  Evaluation
then changes the domain.  This module says which rows change at all, whose buffer
the value is in, and when the value is the one that copies would give.

Main results:

- Theorem `Expr.evaluate_sharing_frame`: an evaluation that succeeds or fails
  keeps all lengths, and all rows but those at the first leaves of the operations
  to which it gets.
- Theorem `Expr.row_evaluate_sharing`: if everything written is read once, shared
  buffers give what copies give.
-/

namespace Formulary

variable {α : Type}

namespace Expr

variable [Scalar α]

/-! ## What changes -/

/-- Evaluation over shared buffers keeps the lengths of all rows, and changes a
row only if it gets to an operation whose first leaf is that variable.  Its value
is in the buffer of the variable at the first leaf of the expression, or in a new
buffer if that leaf is a constant. -/
theorem evaluate_sharing_frame {bindings : Bindings Buffer} {store after : Store α}
    (separate : (Domain.sharing bindings).Separate store) (expr : Expr α)
    {result : Except EvalError Buffer}
    (run : (expr.evaluate (.sharing bindings)).apply store = (result, after)) :
    (∀ name buffer, (name, buffer) ∈ bindings →
      (after.read buffer).length = (store.read buffer).length) ∧
    (∀ name buffer, (name, buffer) ∈ bindings →
      (∀ node, Reaches (.sharing bindings) expr store node → node.writtenName? ≠ some name) →
        after.read buffer = store.read buffer) ∧
    ∀ buffer, result = .ok buffer →
      (∃ name, expr.firstLeaf? = some (.var name) ∧ (name, buffer) ∈ bindings ∧
        (Domain.sharing bindings).namesOf buffer = [name]) ∨
      (∃ value, expr.firstLeaf? = some (.const value) ∧ ¬store.Has buffer ∧
        (Domain.sharing bindings).namesOf buffer = []) := by
  have framed := framed_of_apply expr separate.lives run
  refine ⟨?_, ?_, ?_⟩
  · intro name buffer bound
    exact framed.changes.length_read buffer (separate.lives name buffer bound)
  · intro name buffer bound spared
    refine framed.changes.read_eq buffer (separate.lives name buffer bound) ?_
    rintro ⟨node, other, reaches, written, lends⟩
    have held : (other, buffer) ∈ bindings :=
      Domain.mem_bindings_of_find? (Domain.find?_of_lent? lends)
    have names := separate.namesOf_eq bound
    rw [separate.namesOf_eq held] at names
    have same : other = name := List.head_eq_of_cons_eq names
    subst same
    exact spared node reaches written
  · intro buffer returned
    cases framed.yields buffer returned with
    | @own name leaf lends =>
      have bound : (name, buffer) ∈ bindings :=
        Domain.mem_bindings_of_find? (Domain.find?_of_lent? lends)
      exact .inl ⟨name, leaf, bound, separate.namesOf_eq bound⟩
    | copy leaf bound keeps fresh =>
      have found := bound.symm.trans keeps
      cases found
    | @constant value leaf fresh =>
      exact .inr ⟨value, leaf, fresh, separate.lives.namesOf_eq_nil fresh⟩

/-- The least of the opposite of `x`, of `y` and of `y` again. -/
def leastOpposite (x y : String) : Expr Float :=
  .node ⟨.op (.reduction .min), none⟩
    [.node ⟨.op (.unary .neg), none⟩ [.node ⟨.var x, none⟩ []], .node ⟨.var y, none⟩ [],
      .node ⟨.var y, none⟩ []]

/-- Over rows of two lengths a minimum fails after its first row is changed, and
its other row is kept. -/
theorem evaluate_sharing_frame_leastOpposite :
    (Domain.sharing [("x", ⟨0⟩), ("y", ⟨1⟩)]).Separate (Store.mk #[[1, 2], [(3 : Float)]]) ∧
      ((leastOpposite "x" "y").evaluate (.sharing [("x", ⟨0⟩), ("y", ⟨1⟩)])).apply
          (Store.mk #[[1, 2], [3]]) =
        (.error (.differentLengths "min" none 2 1), Store.mk #[[-1, -2], [3]]) ∧
      (Store.mk #[[-1, -2], [(3 : Float)]]).read ⟨1⟩ = [3] := by
  have separate : (Domain.sharing [("x", ⟨0⟩), ("y", ⟨1⟩)]).Separate
      (Store.mk #[[1, 2], [(3 : Float)]]) := by
    have names : (Bindings.names [("x", [1, 2]), ("y", [(3 : Float)])]).Nodup := by decide
    exact Domain.separate_place names Store.empty
  have run : ((leastOpposite "x" "y").evaluate (.sharing [("x", ⟨0⟩), ("y", ⟨1⟩)])).apply
          (Store.mk #[[1, 2], [3]]) =
        (.error (.differentLengths "min" none 2 1), Store.mk #[[-1, -2], [3]]) := rfl
  have frame := evaluate_sharing_frame separate _ run
  refine ⟨separate, run, ?_⟩
  refine frame.2.1 "y" ⟨1⟩ (by simp) ?_
  intro node reaches written
  exact absurd (reaches.mem_writtenNames written) (by decide)

end Expr

/-! ## Copies of shared rows -/

/-- The samples that copies of the rows of a sharing domain make. -/
theorem Domain.ofRows_rows_sharing {bindings : Bindings Buffer} {store : Store α} {length : Nat}
    (level : ∀ name buffer, (name, buffer) ∈ bindings → (store.read buffer).length = length) :
    Samples.ofRows ((sharing bindings).rows store) none =
      .ok ⟨(sharing bindings).rows store, (sharing bindings).sampleCount store⟩ := by
  have same : ∀ name row, (name, row) ∈ (sharing bindings).rows store → row.length = length := by
    intro name row member
    obtain ⟨⟨key, buffer⟩, bound, pair⟩ := List.mem_map.1 member
    cases pair
    exact level name buffer bound
  rw [Samples.ofRows_of_same same]
  cases bindings with
  | nil => rfl
  | cons pair rest =>
    obtain ⟨name, buffer⟩ := pair
    have count : (store.read buffer).length = length := level name buffer List.mem_cons_self
    show Except.ok (Samples.mk _ (length : Int)) =
      Except.ok (Samples.mk _ ((store.read buffer).length : Int))
    rw [count]

namespace Expr

variable [Scalar α]

/-! ## When sharing does no harm -/

/-- If all rows have one length and every variable that is written is read at one
position, evaluation over shared buffers gives what it gives over copies.  An
evaluation that fails does so in either case, whatever is read and written. -/
theorem row_evaluate_sharing {bindings : Bindings Buffer} {store : Store α}
    (separate : (Domain.sharing bindings).Separate store) {length : Nat}
    (level : ∀ name buffer, (name, buffer) ∈ bindings → (store.read buffer).length = length)
    (expr : Expr α)
    (once : ∀ buffer, ((expr.evaluate (.sharing bindings)).apply store).1 = .ok buffer →
      ∀ name ∈ expr.writtenNames, expr.leafNames.count name = 1)
    (elsewhere : Store α) :
    ∃ samples, Samples.ofRows ((Domain.sharing bindings).rows store) none = .ok samples ∧
      (expr.evaluate (.sharing bindings)).row store =
        (expr.evaluate (Domain.copyingOf samples elsewhere).1).row
          (Domain.copyingOf samples elsewhere).2 := by
  refine ⟨_, Domain.ofRows_rows_sharing level, ?_⟩
  generalize made : Samples.mk ((Domain.sharing bindings).rows store)
    ((Domain.sharing bindings).sampleCount store) = samples
  rcases run : (expr.evaluate (.sharing bindings)).apply store with ⟨error | buffer, after⟩
  · obtain ⟨lives, rows, count⟩ := Domain.copyingOf_spec samples elsewhere
    have shared := length_row_evaluate separate.lives expr
    have copied := length_row_evaluate lives expr
    rw [rows, count, ← made, ← shared, made] at copied
    rw [EvalM.row_of_error run] at copied ⊢
    cases copies : (expr.evaluate (Domain.copyingOf samples elsewhere).1).row
        (Domain.copyingOf samples elsewhere).2 with
    | error other =>
      rw [copies] at copied
      cases copied
      rfl
    | ok row =>
      rw [copies] at copied
      cases copied
  · rw [run] at once
    have linear : (Domain.sharing bindings).Linear expr.writtenNames expr.leafNames :=
      fun name written _ _ => Nat.le_of_eq (once buffer rfl name written)
    have shows : (Domain.sharing bindings).Shows store samples.rows.find? samples.count
        expr.leafNames := by
      rw [← made]
      exact ⟨fun name _ => Domain.find?_rows _ store name, rfl⟩
    rw [row_evaluate_copyingOf, EvalM.row_of_ok run]
    exact row_of_apply separate.lendsApart expr separate.lives shows linear run

end Expr

end Formulary
