import Formulary.Evaluation.Basic
import Formulary.Proofs.Domain.Buffers

/-!
# What evaluation does at one node

Evaluation of a node ends in one of nine ways, according to its label, to the
number of its children and to what came of them.  This module lists these ways
once, so that facts on evaluation are proved by going through them.

Main results:

- Definition `Expr.NodeRun`: the ways in which evaluation of a node ends.
- Theorem `Expr.nodeRun_of_apply`: evaluation ends in one of them.
- Theorems `EvalM.apply_inSequence_of_error` and `EvalM.apply_inSequence_of_ok`:
  computations one after another.
-/

namespace Formulary

variable {α : Type}

/-! ## Computations one after another -/

/-- When the first computation fails, so do all together. -/
theorem EvalM.apply_inSequence_of_error {β : Type} {first : EvalM α β} {store after : Store α}
    {error : EvalError} (run : first.apply store = (.error error, after))
    (rest : List (EvalM α β)) :
    (inSequence (first :: rest)).apply store = (.error error, after) := by
  rw [inSequence, EvalM.apply_bind, run]

/-- When the first computation succeeds, the others run in the store that it
leaves. -/
theorem EvalM.apply_inSequence_of_ok {β : Type} {first : EvalM α β} {store between : Store α}
    {value : β} (run : first.apply store = (.ok value, between)) (rest : List (EvalM α β)) :
    (inSequence (first :: rest)).apply store =
      (((inSequence rest).apply between).1.map (value :: ·),
        ((inSequence rest).apply between).2) := by
  rw [inSequence, EvalM.apply_bind, run]
  dsimp only
  rw [EvalM.apply_bind]
  rcases (inSequence rest).apply between with ⟨_ | _, _⟩ <;> rfl

/-- Computations that all succeed give a value each. -/
theorem EvalM.length_of_apply_inSequence {β : Type} {computations : List (EvalM α β)}
    {store after : Store α} {values : List β}
    (run : (inSequence computations).apply store = (.ok values, after)) :
    values.length = computations.length := by
  induction computations generalizing store after values with
  | nil =>
    cases run
    rfl
  | cons first rest ih =>
    rcases head : first.apply store with ⟨error | value, between⟩
    · rw [EvalM.apply_inSequence_of_error head] at run
      cases run
    · rw [EvalM.apply_inSequence_of_ok head] at run
      rcases tail : (inSequence rest).apply between with ⟨error | others, last⟩
      · rw [tail] at run
        cases run
      · rw [tail] at run
        cases run
        rw [List.length_cons, List.length_cons, ih tail]

/-- A first value comes before the others. -/
theorem inSequence_ok {ε β : Type} (value : β) (rest : List (Except ε β)) :
    inSequence (.ok value :: rest) = (inSequence rest).map (value :: ·) := by
  rw [inSequence]
  cases inSequence rest <;> rfl

/-- The row that a computation gives in a store, or the failure. -/
def EvalM.row (computation : EvalM α Buffer) (store : Store α) : Except EvalError (List α) :=
  (computation.apply store).1.map (computation.apply store).2.read

theorem EvalM.row_of_error {computation : EvalM α Buffer} {store after : Store α}
    {error : EvalError} (run : computation.apply store = (.error error, after)) :
    computation.row store = .error error := by
  rw [row, run]
  rfl

theorem EvalM.row_of_ok {computation : EvalM α Buffer} {store after : Store α} {buffer : Buffer}
    (run : computation.apply store = (.ok buffer, after)) :
    computation.row store = .ok (after.read buffer) := by
  rw [row, run]
  rfl

/-! ## Checks of a node -/

namespace Mark

/-- A node passes the check of its children when there are as many as its kind
asks for. -/
theorem checkArity_eq_ok_iff {mark : Mark α} {count : Nat} :
    mark.checkArity count = .ok () ↔ mark.label.kind.arity ≤ count := by
  unfold checkArity
  by_cases enough : mark.label.kind.arity ≤ count <;> simp [enough]

/-- Leaves need no children. -/
theorem checkArity_of_isLeaf {mark : Mark α} (leaf : mark.label.isLeaf = true) (count : Nat) :
    mark.checkArity count = .ok () := by
  rw [checkArity_eq_ok_iff]
  cases label : mark.label with
  | op operation =>
    rw [label] at leaf
    cases leaf
  | const value => exact Nat.zero_le count
  | var name => exact Nat.zero_le count

/-- Lengths pass the check when all are equal to the first. -/
theorem checkLengths_eq_ok_iff {mark : Mark α} {first : Nat} {rest : List Nat} :
    mark.checkLengths (first :: rest) = .ok () ↔ ∀ length ∈ rest, length = first := by
  rw [checkLengths]
  cases found : rest.find? (· != first) with
  | none =>
    have all_same : ∀ length ∈ rest, length = first := by
      intro length member
      simpa using List.find?_eq_none.1 found length member
    exact ⟨fun _ => all_same, fun _ => rfl⟩
  | some other =>
    have differs : other ≠ first := by simpa using List.find?_some found
    have member : other ∈ rest := List.mem_of_find?_eq_some found
    constructor
    · intro wrong
      cases wrong
    · intro same
      exact absurd (same other member) differs

/-- Rows that pass the check of their lengths are as long as the first. -/
theorem length_eq_of_checkLengths {β : Type} {mark : Mark α} {first : List β}
    {rest : List (List β)} (agree : mark.checkLengths ((first :: rest).map List.length) = .ok ()) :
    ∀ row ∈ first :: rest, row.length = first.length := by
  rw [List.map_cons, checkLengths_eq_ok_iff] at agree
  intro row member
  rcases List.mem_cons.1 member with rfl | member
  · rfl
  · exact agree row.length (List.mem_map_of_mem member)

end Mark

/-- An operation with enough children uses enough of them. -/
theorem Operation.arity_le_length_take {γ : Type} (operation : Operation) {children : List γ}
    (enough : operation.kind.arity ≤ children.length) :
    operation.kind.arity ≤ (children.take (operation.used children.length)).length := by
  rw [List.length_take]
  cases operation with
  | unary op => exact Nat.le_min.2 ⟨Nat.le_refl _, enough⟩
  | binary op => exact Nat.le_min.2 ⟨Nat.le_refl _, enough⟩
  | reduction op => exact Nat.le_min.2 ⟨enough, enough⟩

/-- Every operation needs a child. -/
theorem Operation.arity_pos (operation : Operation) : 0 < operation.kind.arity := by
  cases operation with
  | unary op => exact Nat.one_pos
  | binary op => exact Nat.two_pos
  | reduction op => exact Nat.one_pos

/-! ## Leaves -/

namespace Domain

/-- A constant is put into a new buffer, unless there is no row of its length. -/
theorem apply_constant (domain : Domain) (value : α) (store : Store α) :
    (domain.provider.constant value).apply store =
      match constantRow (domain.sampleCount store) value with
      | .error error => (.error error, store)
      | .ok row => (.ok (store.alloc row).1, (store.alloc row).2) := by
  have counted : (domain.provider.sampleCount : EvalM α Int).apply store =
      (.ok (domain.sampleCount store), store) := rfl
  rw [Provider.constant, EvalM.apply_bind, counted]
  dsimp only
  rw [EvalM.apply_bind, EvalM.apply_lift]
  cases constantRow (domain.sampleCount store) value <;> rfl

/-- A bound variable hands out the buffer that the domain lends, or a copy. -/
theorem apply_fetch (domain : Domain) (name : String) (store : Store α) :
    (domain.fetch name).apply store =
      match domain.bindings.find? name with
      | none => (.error (.unbound name), store)
      | some buffer =>
        match domain.lent? name with
        | none => (.ok (store.alloc (store.read buffer)).1, (store.alloc (store.read buffer)).2)
        | some own => (.ok own, store) := by
  unfold fetch
  cases bound : domain.bindings.find? name with
  | none => rfl
  | some buffer =>
    cases domain with
    | copying bindings count => rfl
    | sharing bindings =>
      have lends : (sharing bindings).lent? name = some buffer := bound
      rw [lends]
      rfl

end Domain

/-! ## One node -/

namespace Expr

variable [Scalar α]

/-- Evaluates expressions from left to right, up to the first failure. -/
def evaluateEach (domain : Domain) (exprs : List (Expr α)) : EvalM α (List Buffer) :=
  inSequence (exprs.map (evaluate domain))

/-- Either the first expression fails, or the others are evaluated in the store
that it leaves. -/
theorem evaluateEach_cons_cases {domain : Domain} {expr : Expr α} {more : List (Expr α)}
    {store after : Store α} {result : Except EvalError (List Buffer)}
    (run : (evaluateEach domain (expr :: more)).apply store = (result, after)) :
    (∃ error, (evaluate domain expr).apply store = (.error error, after) ∧
      result = .error error) ∨
    ∃ first between others, (evaluate domain expr).apply store = (.ok first, between) ∧
      (evaluateEach domain more).apply between = (others, after) ∧
      result = others.map (first :: ·) := by
  rw [evaluateEach, List.map_cons] at run
  rcases head : (evaluate domain expr).apply store with ⟨error | first, between⟩
  · rw [EvalM.apply_inSequence_of_error head] at run
    obtain ⟨rfl, rfl⟩ := Prod.mk.inj run
    exact .inl ⟨error, rfl, rfl⟩
  · rw [EvalM.apply_inSequence_of_ok head] at run
    obtain ⟨rfl, rfl⟩ := Prod.mk.inj run
    exact .inr ⟨first, between, _, rfl, rfl, rfl⟩

/-- The ways in which evaluation of a node ends, each with the result and the
store after it. -/
inductive NodeRun (domain : Domain) (mark : Mark α) (children : List (Expr α))
    (store : Store α) : Except EvalError Buffer → Store α → Prop
  /-- A constant is put into a new buffer. -/
  | constant {value : α} {row : List α} (label : mark.label = .const value)
      (made : constantRow (domain.sampleCount store) value = .ok row) :
      NodeRun domain mark children store (.ok (store.alloc row).1) (store.alloc row).2
  /-- There are no rows of the length that a constant would need. -/
  | noConstant {value : α} {error : EvalError} (label : mark.label = .const value)
      (failed : constantRow (domain.sampleCount store) value = .error error) :
      NodeRun domain mark children store (.error error) store
  /-- A variable is not bound. -/
  | unbound {name : String} (label : mark.label = .var name)
      (free : domain.bindings.find? name = none) :
      NodeRun domain mark children store (.error (.unbound name)) store
  /-- The row of a variable is copied into a new buffer. -/
  | copied {name : String} {buffer : Buffer} (label : mark.label = .var name)
      (bound : domain.bindings.find? name = some buffer) (kept : domain.lent? name = none) :
      NodeRun domain mark children store (.ok (store.alloc (store.read buffer)).1)
        (store.alloc (store.read buffer)).2
  /-- The buffer of a variable is handed out itself. -/
  | lent {name : String} {buffer : Buffer} (label : mark.label = .var name)
      (lends : domain.lent? name = some buffer) :
      NodeRun domain mark children store (.ok buffer) store
  /-- An operation has too few children. -/
  | tooFew {operation : Operation} {error : EvalError} (label : mark.label = .op operation)
      (few : mark.checkArity children.length = .error error) :
      NodeRun domain mark children store (.error error) store
  /-- An argument of an operation fails. -/
  | argument {operation : Operation} {error : EvalError} {after : Store α}
      (label : mark.label = .op operation)
      (enough : mark.checkArity children.length = .ok ())
      (failed : (evaluateEach domain (children.take (operation.used children.length))).apply
        store = (.error error, after)) :
      NodeRun domain mark children store (.error error) after
  /-- The arguments of an operation are of different lengths. -/
  | unequal {operation : Operation} {buffers : List Buffer} {error : EvalError}
      {after : Store α} (label : mark.label = .op operation)
      (enough : mark.checkArity children.length = .ok ())
      (done : (evaluateEach domain (children.take (operation.used children.length))).apply
        store = (.ok buffers, after))
      (differ : mark.checkLengths ((buffers.map after.read).map List.length) = .error error) :
      NodeRun domain mark children store (.error error) after
  /-- The value of an operation is written into the buffer of its first argument. -/
  | written {operation : Operation} {first : Buffer} {rest : List Buffer} {between : Store α}
      (label : mark.label = .op operation)
      (enough : mark.checkArity children.length = .ok ())
      (done : (evaluateEach domain (children.take (operation.used children.length))).apply
        store = (.ok (first :: rest), between))
      (agree : mark.checkLengths (((first :: rest).map between.read).map List.length) =
        .ok ()) :
      NodeRun domain mark children store (.ok first)
        (between.write first (operation.combine ((first :: rest).map between.read)))

/-- The evaluated arguments of an operation are enough for it. -/
theorem arity_le_length_buffers {domain : Domain} {mark : Mark α} {operation : Operation}
    {children : List (Expr α)} {store after : Store α} {buffers : List Buffer}
    (label : mark.label = .op operation) (enough : mark.checkArity children.length = .ok ())
    (done : (evaluateEach domain (children.take (operation.used children.length))).apply
      store = (.ok buffers, after)) :
    operation.kind.arity ≤ buffers.length := by
  have count : buffers.length = (children.take (operation.used children.length)).length := by
    rw [EvalM.length_of_apply_inSequence done, List.length_map]
  rw [Mark.checkArity_eq_ok_iff, label] at enough
  rw [count]
  exact operation.arity_le_length_take enough

/-- The value of an operation has the length of the first argument once the
lengths are compared. -/
theorem length_combine_of_checkLengths {mark : Mark α} {operation : Operation} {first : List α}
    {rest : List (List α)} (enough : operation.kind.arity ≤ (first :: rest).length)
    (agree : mark.checkLengths ((first :: rest).map List.length) = .ok ()) :
    (operation.combine (first :: rest)).length = first.length :=
  operation.length_combine enough (Mark.length_eq_of_checkLengths agree)

/-- Evaluation of a constant looks at none of its children. -/
theorem apply_evaluateNode_const (provider : Provider α) {mark : Mark α} {value : α}
    (label : mark.label = .const value) (children : List (EvalM α Buffer)) (store : Store α) :
    (evaluateNode provider mark children).apply store =
      (provider.constant value).apply store := by
  rw [evaluateNode, Mark.checkArity_of_isLeaf (by rw [label]; rfl), label]
  rfl

/-- Evaluation of a variable looks at none of its children. -/
theorem apply_evaluateNode_var (provider : Provider α) {mark : Mark α} {name : String}
    (label : mark.label = .var name) (children : List (EvalM α Buffer)) (store : Store α) :
    (evaluateNode provider mark children).apply store = (provider.fetch name).apply store := by
  rw [evaluateNode, Mark.checkArity_of_isLeaf (by rw [label]; rfl), label]
  rfl

/-- Evaluation of a node ends in one of the ways listed. -/
theorem nodeRun_of_apply {domain : Domain} {mark : Mark α} {children : List (Expr α)}
    {store after : Store α} {result : Except EvalError Buffer}
    (run : (evaluate domain (Tree.node mark children)).apply store = (result, after)) :
    NodeRun domain mark children store result after := by
  rw [evaluate_node] at run
  cases label : mark.label with
  | const value =>
    rw [apply_evaluateNode_const domain.provider label, Domain.apply_constant] at run
    cases made : constantRow (domain.sampleCount store) value with
    | error error =>
      rw [made] at run
      cases run
      exact .noConstant label made
    | ok row =>
      rw [made] at run
      cases run
      exact .constant label made
  | var name =>
    rw [apply_evaluateNode_var domain.provider label, Domain.provider, Domain.apply_fetch] at run
    cases bound : domain.bindings.find? name with
    | none =>
      rw [bound] at run
      cases run
      exact .unbound label bound
    | some buffer =>
      rw [bound] at run
      cases lends : domain.lent? name with
      | none =>
        rw [lends] at run
        cases run
        exact .copied label bound lends
      | some own =>
        rw [lends] at run
        cases run
        exact .lent label lends
  | op operation =>
    rw [apply_evaluateNode_op domain.provider label, List.length_map, ← List.map_take] at run
    cases enough : mark.checkArity children.length with
    | error error =>
      rw [enough] at run
      cases run
      exact .tooFew label enough
    | ok checked =>
      rw [enough] at run
      rcases done : (evaluateEach domain (children.take (operation.used children.length))).apply
        store with ⟨error | buffers, between⟩
      · unfold evaluateEach at done
        rw [done] at run
        cases run
        exact .argument label enough done
      · have given := arity_le_length_buffers label enough done
        unfold evaluateEach at done
        rw [done] at run
        dsimp only at run
        cases agree : mark.checkLengths ((buffers.map between.read).map List.length) with
        | error error =>
          rw [agree] at run
          cases run
          exact .unequal label enough done agree
        | ok same =>
          rw [agree] at run
          cases buffers with
          | nil => exact absurd given (Nat.not_le_of_gt operation.arity_pos)
          | cons first rest =>
            cases run
            exact .written label enough done agree

end Expr

end Formulary
