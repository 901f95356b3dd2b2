import Formulary.Proofs.Evaluation.Mirroring

/-!
# What validation leaves behind

Validation over a domain evaluates the expression, unless its shape or its constants are at
fault.  Over copies nobody notices.  Over shared buffers that evaluation writes where any
other would write, so it is seen in the rows of some variables, and nowhere else.

Main results:

- Theorem `Domain.twins_self`: a domain is its own twin for rows that did not change.
- Definition `Expr.Disturbs`: the buffers that validation may overwrite.
- Theorem `Expr.validation_frame`: all other rows stay, and so does the value of every
  expression none of whose variables is bound to such a buffer.
- Theorem `Expr.validation_overwrites_opposite`: over shared buffers a valid expression may
  have another value after it was validated.
-/

namespace Formulary

variable {α : Type}

namespace Domain

theorem sameKind_self (domain : Domain) : domain.SameKind domain := by
  cases domain <;> exact trivial

/-- A domain is its own twin for the names whose rows did not change. -/
theorem twins_self {domain : Domain} {before after : Store α} {written : Buffer → Prop}
    (lives : domain.LivesIn before) (changes : Store.ChangesOnly written before after)
    {names : List String}
    (kept : ∀ name ∈ names, ∀ buffer, domain.bindings.find? name = some buffer →
      after.read buffer = before.read buffer) :
    Twins domain domain names (BoundAlike names domain domain) after before where
  kind := domain.sameKind_self
  lives := lives.later changes
  lives' := lives
  count := sampleCount_of_changesOnly lives changes
  bound := by
    intro name member
    cases bound : domain.bindings.find? name with
    | none => exact .none
    | some buffer => exact .some ⟨name, member, bound, bound⟩
  mirrors :=
    { present := by
        rintro one other ⟨name, -, bound, bound'⟩
        exact ⟨(lives.later changes).has bound, lives.has bound'⟩
      read_eq := by
        rintro one other ⟨name, member, bound, bound'⟩
        obtain rfl : one = other := Option.some.inj (bound.symm.trans bound')
        exact kept name member one bound
      matched := by
        rintro one other one' other' ⟨name, -, bound, bound'⟩ ⟨name', -, again, again'⟩
        obtain rfl : one = other := Option.some.inj (bound.symm.trans bound')
        obtain rfl : one' = other' := Option.some.inj (again.symm.trans again')
        exact Iff.rfl }

end Domain

namespace Expr

variable [Scalar α] {domain : Domain} {store after : Store α}

/-! ## What validation writes -/

/-- Validation of an expression may overwrite a buffer if it comes to evaluating the
expression, and this may overwrite it. -/
def Disturbs (domain : Domain) (expr : Expr α) (store : Store α) (buffer : Buffer) : Prop :=
  expr.isValid = true ∧ Overwrites domain expr store buffer

/-- Over copies nothing is overwritten. -/
theorem not_disturbs_copying (bindings : Bindings Buffer) (count : Int) (expr : Expr α)
    (store : Store α) (buffer : Buffer) :
    ¬Disturbs (.copying bindings count) expr store buffer := by
  rintro ⟨-, node, name, -, -, lends⟩
  cases lends

/-- Validation does to the store what evaluation does, or nothing at all. -/
theorem store_of_isValidOn {expr : Expr α} {answer : Except EvalError Bool}
    (run : (expr.isValidOn domain).apply store = (answer, after)) :
    after = if expr.isValid then ((expr.evaluate domain).apply store).2 else store := by
  rw [apply_isValidOn] at run
  cases valid : expr.isValid with
  | false =>
    rw [valid] at run
    exact (congrArg Prod.snd run).symm
  | true =>
    rw [valid, if_pos rfl] at run
    rw [if_pos rfl]
    rcases evaluated : (expr.evaluate domain).apply store with ⟨error | buffer, later⟩
    · rw [evaluated] at run
      dsimp only at run
      split at run
      · exact (congrArg Prod.snd run).symm
      · exact (congrArg Prod.snd run).symm
    · rw [evaluated] at run
      exact (congrArg Prod.snd run).symm

/-- Validation changes only buffers that it may overwrite. -/
theorem changesOnly_isValidOn (lives : domain.LivesIn store) {expr : Expr α}
    {answer : Except EvalError Bool}
    (run : (expr.isValidOn domain).apply store = (answer, after)) :
    Store.ChangesOnly (Disturbs domain expr store) store after := by
  rw [store_of_isValidOn run]
  cases valid : expr.isValid with
  | false => exact .refl _ store
  | true =>
    rw [if_pos rfl]
    rcases evaluated : (expr.evaluate domain).apply store with ⟨result, later⟩
    have framed := framed_of_apply expr lives evaluated
    exact framed.changes.mono fun _ overwrites => ⟨valid, overwrites⟩

/-! ## What validation leaves as it is -/

/-- Validation keeps the lengths of all rows, and all rows but those at the first leaves of
the operations to which evaluation of a valid expression gets; these it leaves as that
evaluation does.  Expressions without variables in such rows have the value that they had.
Over copies there are no such rows: validation keeps them all, and every expression has the
value that it had. -/
theorem validation_frame (lives : domain.LivesIn store) (expr : Expr α)
    {answer : Except EvalError Bool}
    (run : (expr.isValidOn domain).apply store = (answer, after)) :
    (after = if expr.isValid then ((expr.evaluate domain).apply store).2 else store) ∧
      (∀ name buffer, (name, buffer) ∈ domain.bindings →
        (after.read buffer).length = (store.read buffer).length) ∧
      (∀ name buffer, (name, buffer) ∈ domain.bindings → ¬Disturbs domain expr store buffer →
        after.read buffer = store.read buffer) ∧
      (∀ other : Expr α, (∀ name ∈ other.variableNames, ∀ buffer,
          domain.bindings.find? name = some buffer → ¬Disturbs domain expr store buffer) →
        (other.evaluate domain).row after = (other.evaluate domain).row store) ∧
      ∀ bindings count, domain = .copying bindings count →
        domain.rows after = domain.rows store ∧
          ∀ other : Expr α,
            (other.evaluate domain).row after = (other.evaluate domain).row store := by
  have changes := changesOnly_isValidOn lives run
  have value : ∀ other : Expr α, (∀ name ∈ other.variableNames, ∀ buffer,
      domain.bindings.find? name = some buffer → ¬Disturbs domain expr store buffer) →
        (other.evaluate domain).row after = (other.evaluate domain).row store := by
    intro other spared
    refine row_eq_of_twins (Domain.twins_self lives changes ?_)
    intro name member buffer bound
    exact changes.read_eq buffer (lives.has bound) (spared name member buffer bound)
  refine ⟨store_of_isValidOn run, ?_, ?_, value, ?_⟩
  · intro name buffer bound
    exact changes.length_read buffer (lives name buffer bound)
  · intro name buffer bound spared
    exact changes.read_eq buffer (lives name buffer bound) spared
  · rintro bindings count rfl
    have spared := not_disturbs_copying bindings count expr store
    refine ⟨Domain.rows_congr ?_, fun other => value other fun _ _ buffer _ => spared buffer⟩
    intro name buffer bound
    exact changes.read_eq buffer (lives name buffer bound) (spared buffer)

/-- The least of the opposite of `x` and of `y` is validated without harm to `y`. -/
theorem validation_frame_leastOpposite :
    (Domain.sharing [("x", ⟨0⟩), ("y", ⟨1⟩)]).LivesIn (Store.mk #[[1, 2], [3, (4 : Float)]]) ∧
      ∃ answer after, ((leastOpposite "x" "y").isValidOn
          (.sharing [("x", ⟨0⟩), ("y", ⟨1⟩)])).apply (Store.mk #[[1, 2], [3, 4]]) =
            (answer, after) ∧
        ¬Disturbs (.sharing [("x", ⟨0⟩), ("y", ⟨1⟩)]) (leastOpposite "x" "y")
          (Store.mk #[[1, 2], [3, 4]]) ⟨1⟩ ∧
        after.read ⟨1⟩ = [3, 4] := by
  have names : (Bindings.names [("x", [1, 2]), ("y", [3, (4 : Float)])]).Nodup := by decide
  have separate := Domain.separate_place names Store.empty
  rcases run : ((leastOpposite "x" "y").isValidOn (.sharing [("x", ⟨0⟩), ("y", ⟨1⟩)])).apply
    (Store.mk #[[1, 2], [3, (4 : Float)]]) with ⟨answer, after⟩
  have spared : ¬Disturbs (.sharing [("x", ⟨0⟩), ("y", ⟨1⟩)]) (leastOpposite "x" "y")
      (Store.mk #[[1, 2], [3, 4]]) ⟨1⟩ := by
    rintro ⟨-, overwrites⟩
    obtain ⟨name, written, lends⟩ := overwrites.exists_writtenName
    have all_written : (leastOpposite "x" "y").writtenNames = ["x", "x"] := rfl
    obtain rfl : name = "x" := by simpa [all_written] using written
    exact absurd lends (by decide)
  obtain ⟨-, -, kept, -⟩ := validation_frame separate.lives (leastOpposite "x" "y") run
  exact ⟨separate.lives, answer, after, rfl, spared, kept "y" ⟨1⟩ (.tail _ (.head _)) spared⟩

/-! ## What it does not -/

/-- The opposite of `x`. -/
def opposite : Expr Float :=
  .node ⟨.op (.unary .neg), none⟩ [.node ⟨.var "x", none⟩ []]

theorem isValid_opposite : opposite.isValid = true := by
  refine isValid_iff_isSound.2 ?_
  have all_nodes : opposite.preorder = [opposite, .node ⟨.var "x", none⟩ []] := rfl
  intro node member
  simp only [all_nodes, List.mem_cons, List.not_mem_nil, or_false] at member
  rcases member with rfl | rfl
  · exact rfl
  · exact rfl

/-- Over shared buffers validation of an opposite says that it is valid, and puts the
opposite in the place of the row; evaluated after that, it has another value. -/
theorem validation_overwrites_opposite :
    (Domain.sharing [("x", ⟨0⟩)]).Separate (Store.mk #[[1, (2 : Float)]]) ∧
      (opposite.isValidOn (.sharing [("x", ⟨0⟩)])).apply (Store.mk #[[1, 2]]) =
        (.ok true, Store.mk #[[-1, -2]]) ∧
      (Store.mk #[[-1, (-2 : Float)]]).read ⟨0⟩ ≠ (Store.mk #[[1, 2]]).read ⟨0⟩ ∧
      (opposite.evaluate (.sharing [("x", ⟨0⟩)])).row (Store.mk #[[-1, -2]]) ≠
        (opposite.evaluate (.sharing [("x", ⟨0⟩)])).row (Store.mk #[[1, 2]]) := by
  have names : (Bindings.names [("x", [1, (2 : Float)])]).Nodup := by decide
  have before : (opposite.evaluate (.sharing [("x", ⟨0⟩)])).row (Store.mk #[[1, 2]]) =
    .ok [-1, -2] := rfl
  have later : (opposite.evaluate (.sharing [("x", ⟨0⟩)])).row (Store.mk #[[-1, -2]]) =
    .ok [- -1, - -2] := rfl
  refine ⟨Domain.separate_place names Store.empty, ?_, ?_, ?_⟩
  · rw [apply_isValidOn, if_pos isValid_opposite]
    rfl
  · show [-1, (-2 : Float)] ≠ [1, 2]
    decide +kernel
  · rw [before, later]
    intro same
    have first : [- -1, - -2] = [-1, (-2 : Float)] := Except.ok.inj same
    exact absurd first (by decide +kernel)

end Expr

end Formulary
