import Formulary.Proofs.Domain.Agreement
import Formulary.Proofs.Evaluation.Inference

/-!
# Outcomes are known beforehand

Whether an evaluation succeeds, how long its value is and how it fails depend on
no sample, even while the rows are overwritten.  Over samples of one length only
three things can be wrong with a node, and the first node in preorder with which
something is wrong decides.

Main results:

- Theorem `Expr.faultOver?_cases`: what can be wrong with a node.
- Theorem `Expr.length?_eq_firstFaultOver?`: with rows of one length, the
  inference finds that length or the first fault.
- Theorem `Expr.outcome_of_lengths`: the outcome of evaluation over any domain is
  inferred, and over samples of one length it is that length or the first fault.
-/

namespace Formulary

variable {α : Type}

namespace Expr

variable {lengthOf : String → Option Nat} {count : Int} {mark : Mark α} {operation : Operation}

/-! ## The first fault -/

variable {bound : String → Bool}

/-- A constant is at fault when there are no rows of its length. -/
theorem faultOver?_const {value : α} (label : mark.label = .const value)
    (children : List (Expr α)) :
    faultOver? bound count (Tree.node mark children) =
      match rowLength? count with
      | none => some (.notALength count)
      | some _ => none := by
  rw [faultOver?, Tree.value_node, label]
  cases rowLength? count with
  | none => rfl
  | some length =>
    dsimp only
    rw [fault?, Tree.value_node, Mark.checkArity_of_isLeaf (by rw [label]; rfl), label]

/-- A variable is at fault when it is not bound. -/
theorem faultOver?_var {name : String} (label : mark.label = .var name)
    (children : List (Expr α)) :
    faultOver? bound count (Tree.node mark children) =
      if bound name then none else some (.unbound name) := by
  rw [faultOver?, Tree.value_node, label]
  dsimp only
  rw [fault?, Tree.value_node, Mark.checkArity_of_isLeaf (by rw [label]; rfl), label]

/-- An operation is at fault when it has too few children. -/
theorem faultOver?_op (label : mark.label = .op operation) (children : List (Expr α)) :
    faultOver? bound count (Tree.node mark children) =
      match mark.checkArity children.length with
      | .error error => some error
      | .ok () => none := by
  cases enough : mark.checkArity children.length with
  | error error => simp [faultOver?, fault?, label, enough]
  | ok checked => simp [faultOver?, fault?, label, enough]

/-- What can be wrong with a node: it has too few children, is a variable that is
not bound, or is a constant for which there are no rows. -/
theorem faultOver?_cases {node : Expr α} {error : EvalError}
    (fault : faultOver? bound count node = some error) :
    (node.children.length < node.value.label.kind.arity ∧
      error = .missingArguments node.value.label.title node.value.id
        node.value.label.kind.arity node.children.length) ∨
    (∃ name, node.value.label = .var name ∧ bound name = false ∧ error = .unbound name) ∨
    ∃ value, node.value.label = .const value ∧ rowLength? count = none ∧
      error = .notALength count := by
  obtain ⟨mark, children⟩ := node
  rw [Tree.value_node, Tree.children_node]
  cases label : mark.label with
  | const value =>
    rw [faultOver?_const label] at fault
    cases long : rowLength? count with
    | none =>
      rw [long] at fault
      exact .inr (.inr ⟨value, rfl, rfl, (Option.some.inj fault).symm⟩)
    | some length =>
      rw [long] at fault
      cases fault
  | var name =>
    rw [faultOver?_var label] at fault
    cases free : bound name with
    | true => simp [free] at fault
    | false =>
      rw [free] at fault
      exact .inr (.inl ⟨name, rfl, free, (Option.some.inj fault).symm⟩)
  | op operation =>
    rw [faultOver?_op label, Mark.checkArity, label] at fault
    by_cases enough : operation.kind.arity ≤ children.length
    · simp [Label.kind, enough] at fault
    · simp only [Label.kind, enough, if_false, Option.some.injEq] at fault
      exact .inl ⟨Nat.lt_of_not_le enough, fault.symm⟩

/-- A node and its evaluated part have the same fault. -/
theorem faultOver?_evaluatedPart (node : Expr α) :
    faultOver? bound count node.evaluatedPart = faultOver? bound count node := by
  obtain ⟨mark, children⟩ := node
  rw [evaluatedPart_node]
  cases label : mark.label with
  | const value => rw [faultOver?_const label, faultOver?_const label]
  | var name => rw [faultOver?_var label, faultOver?_var label]
  | op operation =>
    rw [faultOver?_op label, faultOver?_op label, Label.used, ← List.map_take, List.length_map,
      Mark.checkArity_take label]

/-- The first fault is that of a node that is evaluated. -/
theorem exists_faultOver?_of_firstFaultOver? {expr : Expr α} {error : EvalError}
    (first : expr.firstFaultOver? bound count = some error) :
    ∃ node ∈ expr.evaluatedNodes, faultOver? bound count node = some error :=
  List.exists_of_findSome?_eq_some first

/-- Lengths that differ are not the fault of a node alone. -/
theorem firstFaultOver?_ne_differentLengths {expr : Expr α} {title : String}
    {id : Option NodeId} {first other : Nat} :
    expr.firstFaultOver? bound count ≠ some (.differentLengths title id first other) := by
  intro differ
  obtain ⟨node, -, fault⟩ := exists_faultOver?_of_firstFaultOver? differ
  rcases faultOver?_cases fault with ⟨-, own⟩ | ⟨name, -, -, own⟩ | ⟨value, -, -, own⟩
  · cases own
  · cases own
  · cases own

/-- The first fault is that of the root, or else the first below it. -/
theorem firstFaultOver?_node (mark : Mark α) (children : List (Expr α)) :
    firstFaultOver? bound count (Tree.node mark children) =
      (faultOver? bound count (Tree.node mark children)).or
        ((children.take (mark.label.used children.length)).findSome?
          (firstFaultOver? bound count)) := by
  have below : ((children.take (mark.label.used children.length)).flatMap
      evaluatedNodes).findSome? (faultOver? bound count) =
      (children.take (mark.label.used children.length)).findSome?
        (firstFaultOver? bound count) := by
    rw [← List.head?_filterMap, List.filterMap_flatMap, List.head?_flatMap]
    simp only [List.head?_filterMap]
    rfl
  rw [← below, firstFaultOver?, ← evaluatedNodes, evaluatedNodes_node, List.findSome?_cons,
    faultOver?_evaluatedPart]
  cases faultOver? bound count (Tree.node mark children) <;> rfl

/-- With rows of one length, the inference finds that length or the first
fault. -/
theorem length?_eq_firstFaultOver?
    (level : ∀ name length, lengthOf name = some length → (length : Int) = count)
    (expr : Expr α) :
    expr.length? lengthOf count =
      match expr.firstFaultOver? (fun name => (lengthOf name).isSome) count with
      | some error => .error error
      | none => .ok count.toNat := by
  induction expr using Tree.induct with
  | step mark children ih =>
    rw [firstFaultOver?_node]
    cases label : mark.label with
    | const value =>
      have none_used : (Label.const value).used children.length = 0 := rfl
      rw [length?_const label, faultOver?_const label, none_used, List.take_zero]
      cases long : rowLength? count with
      | none => rfl
      | some length =>
        obtain ⟨rfl, -⟩ := rowLength?_eq_some_iff.1 long
        rfl
    | var name =>
      have none_used : (Label.var name : Label α).used children.length = 0 := rfl
      rw [length?_var label, faultOver?_var label, none_used, List.take_zero]
      cases given : lengthOf name with
      | none => rfl
      | some length =>
        rw [← level name length given]
        rfl
    | op operation =>
      rw [faultOver?_op label, Label.used]
      cases enough : mark.checkArity children.length with
      | error error =>
        rw [length?_op label, enough]
        rfl
      | ok checked =>
        rw [Option.none_or]
        exact length?_op_eq_findSome? label enough
          fun child member => ih child (List.mem_of_mem_take member)

end Expr

/-! ## Outcomes of evaluation -/

/-- A result that is looked at from one side fails as it does. -/
theorem map_eq_error_iff {ε β γ : Type} {f : β → γ} {result : Except ε β} {error : ε} :
    result.map f = .error error ↔ result = .error error := by
  cases result <;> simp [Except.map]

namespace Expr

variable [Scalar α]

/-- The outcome over samples is inferred from their names and number. -/
theorem length_evaluate_copyingOf (samples : Samples α) (store : Store α) (expr : Expr α) :
    ((expr.evaluate (Domain.copyingOf samples store).1).row
        (Domain.copyingOf samples store).2).map List.length =
      expr.length? (fun name => (samples.rows.find? name).map List.length) samples.count := by
  obtain ⟨lives, rows_eq, count_eq⟩ := Domain.copyingOf_spec samples store
  rw [length_row_evaluate lives, rows_eq, count_eq]

/-- Evaluation over samples of one length fails exactly with the first fault. -/
theorem evaluate_copyingOf_eq_error_iff {rows : Bindings (List α)} {count : Option Int}
    {samples : Samples α} (made : Samples.ofRows rows count = .ok samples) (store : Store α)
    (expr : Expr α) (error : EvalError) :
    (expr.evaluate (Domain.copyingOf samples store).1).row (Domain.copyingOf samples store).2 =
        .error error ↔
      expr.firstFaultOver? (fun name => (samples.rows.find? name).isSome) samples.count =
        some error := by
  have inferred := length_evaluate_copyingOf samples store expr
  rw [length?_eq_firstFaultOver? (Samples.level made)] at inferred
  simp only [Option.isSome_map] at inferred
  rw [← map_eq_error_iff (f := List.length), inferred]
  cases expr.firstFaultOver? (fun name => (samples.rows.find? name).isSome) samples.count with
  | none => simp
  | some first => simp

/-- The outcome of evaluation is inferred from the lengths of the rows, with no
look at a sample or a constant: the length of the value, which is that of all that
is evaluated on the way to it, or the failure.  Over samples of one length the
value has that length, arguments never differ in length, and evaluation fails
exactly when something is wrong with a node that it evaluates, as the first such
node in preorder.  That is a missing child or a variable that is not bound, unless
there are no rows of that length to hold a constant. -/
theorem outcome_of_lengths (expr : Expr α) :
    (∀ (domain : Domain) (store : Store α), domain.LivesIn store →
      ((expr.evaluate domain).row store).map List.length =
        expr.outline.length? (fun name => ((domain.rows store).find? name).map List.length)
          (domain.sampleCount store) ∧
      ∀ row, (expr.evaluate domain).row store = .ok row → ∀ node ∈ expr.evaluatedNodes,
        node.outline.length? (fun name => ((domain.rows store).find? name).map List.length)
          (domain.sampleCount store) = .ok row.length) ∧
    ∀ (rows : Bindings (List α)) (count : Option Int) (samples : Samples α) (store : Store α)
      (outcome : Except EvalError (List α)),
      Samples.ofRows rows count = .ok samples →
      (expr.evaluate (Domain.copyingOf samples store).1).row
        (Domain.copyingOf samples store).2 = outcome →
      (∀ row, outcome = .ok row → (row.length : Int) = samples.count) ∧
      (∀ title id first other, outcome ≠ .error (.differentLengths title id first other)) ∧
      (∀ error, outcome = .error error ↔
        expr.firstFaultOver? (fun name => (samples.rows.find? name).isSome) samples.count =
          some error) ∧
      (0 ≤ samples.count → samples.count < rowLimit → ∀ error, outcome = .error error ↔
        expr.firstFault? (fun name => (samples.rows.find? name).isSome) = some error) := by
  refine ⟨?_, ?_⟩
  · intro domain store lives
    have inferred := length_row_evaluate lives expr
    rw [length?_outline]
    refine ⟨inferred, ?_⟩
    intro row returned node member
    rw [returned] at inferred
    rw [length?_outline]
    exact length?_of_mem_evaluatedNodes inferred.symm node member
  · intro rows count samples store outcome made run
    have inferred := length_evaluate_copyingOf samples store expr
    have fails := evaluate_copyingOf_eq_error_iff made store expr
    rw [run] at inferred
    simp only [run] at fails
    refine ⟨?_, ?_, fails, ?_⟩
    · rintro row rfl
      exact length?_eq_count (Samples.level made) inferred.symm
    · intro title id first other differ
      exact firstFaultOver?_ne_differentLengths ((fails _).1 differ)
    · intro natural short error
      have long : rowLength? samples.count = some samples.count.toNat :=
        rowLength?_eq_some_iff.2 (by omega)
      rw [fails, firstFaultOver?_of_rowLength? long]

/-- The least of one and of a variable. -/
def leastOfOne (name : String) : Expr Float :=
  .node ⟨.op (.reduction .min), none⟩
    [.node ⟨.const 1, none⟩ [], .node ⟨.var name, none⟩ []]

/-- Over rows of two lengths the arguments differ; over samples of one length a
variable that is not bound is all that is wrong. -/
theorem outcome_of_lengths_leastOfOne :
    (Domain.sharing [("x", ⟨0⟩), ("y", ⟨1⟩)]).LivesIn (Store.mk #[[1, 2], [(3 : Float)]]) ∧
      (((leastOfOne "y").evaluate (.sharing [("x", ⟨0⟩), ("y", ⟨1⟩)])).row
        (Store.mk #[[1, 2], [3]])).map List.length =
          .error (.differentLengths "min" none 2 1) ∧
      Samples.ofRows [("x", [1, (2 : Float)])] none = .ok ⟨[("x", [1, 2])], 2⟩ ∧
      ((leastOfOne "y").evaluate (Domain.copyingOf ⟨[("x", [1, 2])], 2⟩ Store.empty).1).row
        (Domain.copyingOf ⟨[("x", [1, 2])], 2⟩ Store.empty).2 = .error (.unbound "y") := by
  have lives : (Domain.sharing [("x", ⟨0⟩), ("y", ⟨1⟩)]).LivesIn
      (Store.mk #[[1, 2], [(3 : Float)]]) := by
    intro name buffer bound
    rcases List.mem_cons.1 bound with first | bound
    · cases first
      exact Nat.two_pos
    · cases List.mem_singleton.1 bound
      exact Nat.one_lt_two
  have made : Samples.ofRows [("x", [1, (2 : Float)])] none = .ok ⟨[("x", [1, 2])], 2⟩ :=
    Samples.ofRows_singleton "x" [1, 2]
  have static := outcome_of_lengths (leastOfOne "y")
  refine ⟨lives, (static.1 _ _ lives).1, made, ?_⟩
  exact ((static.2 _ _ _ Store.empty _ made rfl).2.2.1 _).2 rfl

/-- With more samples than a row holds, the constant fails, and not the variable
that is not bound. -/
theorem outcome_leastOfOne_without_rows :
    ∃ samples : Samples Float, Samples.ofRows [] (some 1500000000000000000) = .ok samples ∧
      0 ≤ samples.count ∧
      ((leastOfOne "q").evaluate (Domain.copyingOf samples Store.empty).1).row
        (Domain.copyingOf samples Store.empty).2 = .error (.notALength 1500000000000000000) ∧
      (leastOfOne "q").firstFault? (fun name => (samples.rows.find? name).isSome) =
        some (.unbound "q") := by
  exact ⟨⟨[], 1500000000000000000⟩, Samples.ofRows_nil _, by decide, rfl, rfl⟩

end Expr

end Formulary
