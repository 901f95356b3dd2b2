import Formulary.Proofs.Evaluation.Outcomes
import Formulary.Proofs.Tree.Orders

/-!
# Valid expressions

An expression is valid when every node has the children that it takes and every
constant is finite.  Validation goes through the nodes in preorder, then in level
order, and evaluates the expression last.  Evaluation asks for less: it leaves
aside children that it does not need.  This module says what the answer of
validation means, and that evaluation complains only of nodes that validation
finds.

Main results:

- Definition `Expr.IsSound`: the children and the constant of a node are right.
- Theorem `Expr.isValid_iff_isSound`: an expression is valid when its nodes are.
- Theorem `Expr.evaluatedPart_of_admitted`: all of a valid expression is
  evaluated.
- Theorem `Expr.validity_over_samples`: the answer of validation over samples, and
  what it says of evaluation.
-/

namespace Formulary

variable {α : Type}

/-- A number of children that a kind admits is enough for it. -/
theorem Kind.arity_le_of_admits {kind : Kind} {count : Nat} (admitted : kind.admits count = true) :
    kind.arity ≤ count := by
  cases kind with
  | reduction => exact of_decide_eq_true admitted
  | const => exact Nat.le_of_eq (beq_iff_eq.1 admitted).symm
  | var => exact Nat.le_of_eq (beq_iff_eq.1 admitted).symm
  | unary => exact Nat.le_of_eq (beq_iff_eq.1 admitted).symm
  | binary => exact Nat.le_of_eq (beq_iff_eq.1 admitted).symm

namespace Expr

/-! ## Sound nodes -/

/-- A node has as many children as it takes: none if it is a constant or a
variable, one or two if it is a function, and any but none if it is a reduction.
Constants are finite. -/
def IsSound [Scalar α] (node : Expr α) : Prop :=
  match node.value.label with
  | .const value => node.children.length = 0 ∧ Scalar.isFinite value = true
  | .var _ => node.children.length = 0
  | .op (.unary _) => node.children.length = 1
  | .op (.binary _) => node.children.length = 2
  | .op (.reduction _) => 1 ≤ node.children.length

theorem isSound_iff [Scalar α] {node : Expr α} :
    node.IsSound ↔ hasAdmittedArity node = true ∧ hasFiniteValue node = true := by
  rw [IsSound, hasAdmittedArity, hasFiniteValue]
  cases node.value.label with
  | const value => simp [Label.kind, Kind.admits, Kind.arity]
  | var name => simp [Label.kind, Kind.admits, Kind.arity]
  | op operation =>
    cases operation with
    | unary op => simp [Label.kind, Operation.kind, Kind.admits, Kind.arity]
    | binary op => simp [Label.kind, Operation.kind, Kind.admits, Kind.arity]
    | reduction op =>
      show 1 ≤ node.children.length ↔ decide (1 ≤ node.children.length) = true ∧ true = true
      simp

/-- An expression is valid when all of its nodes are sound. -/
theorem isValid_iff_isSound [Scalar α] {expr : Expr α} :
    expr.isValid = true ↔ ∀ node ∈ expr.preorder, IsSound node := by
  simp only [isValid_iff, Tree.mem_levelOrder_iff, isSound_iff]
  constructor
  · rintro ⟨arities, constants⟩ node member
    exact ⟨arities node member, constants node member⟩
  · intro sound
    exact ⟨fun node member => (sound node member).1, fun node member => (sound node member).2⟩

/-- The names of an expression are those of its variables. -/
theorem mem_variableNames_iff {expr : Expr α} {name : String} :
    name ∈ expr.variableNames ↔ ∃ node ∈ expr.preorder, node.value.label = .var name := by
  have named : ∀ label : Label α, label.varName? = some name ↔ label = .var name := by
    intro label
    cases label <;> simp [Label.varName?]
  simp only [variableNames, mem_sortedNames, List.mem_filterMap, Tree.mem_levelOrder_iff, named]

/-! ## What is evaluated -/

/-- Every node that is evaluated is the evaluated part of a node. -/
theorem exists_of_mem_evaluatedNodes {expr node : Expr α} (member : node ∈ expr.evaluatedNodes) :
    ∃ whole ∈ expr.preorder, node = evaluatedPart whole := by
  induction expr using Tree.induct with
  | step mark children ih =>
    rw [evaluatedNodes_node] at member
    rcases List.mem_cons.1 member with rfl | below
    · exact ⟨_, Tree.self_mem_preorder _, rfl⟩
    · obtain ⟨child, used, inside⟩ := List.mem_flatMap.1 below
      have child_member := List.mem_of_mem_take used
      obtain ⟨whole, listed, same⟩ := ih child child_member inside
      exact ⟨whole, Tree.mem_preorder_of_mem_child child_member listed, same⟩

/-- All of an expression is evaluated if every node has a number of children that
its kind admits. -/
theorem evaluatedPart_of_admitted {expr : Expr α}
    (admitted : ∀ node ∈ expr.preorder, hasAdmittedArity node = true) :
    expr.evaluatedPart = expr := by
  induction expr using Tree.induct with
  | step mark children ih =>
    have same : children.map evaluatedPart = children := by
      refine (List.map_congr_left ?_).trans (List.map_id children)
      intro child member
      exact ih child member fun node listed =>
        admitted node (Tree.mem_preorder_of_mem_child member listed)
    have own : mark.label.kind.admits children.length = true :=
      admitted _ (Tree.self_mem_preorder _)
    rw [evaluatedPart_node, same, List.take_of_length_le]
    cases label : mark.label with
    | const value =>
      rw [label] at own
      exact Nat.le_of_eq (beq_iff_eq.1 own)
    | var name =>
      rw [label] at own
      exact Nat.le_of_eq (beq_iff_eq.1 own)
    | op operation =>
      rw [label] at own
      cases operation with
      | unary op => exact Nat.le_of_eq (beq_iff_eq.1 own)
      | binary op => exact Nat.le_of_eq (beq_iff_eq.1 own)
      | reduction op => exact Nat.le_refl _

/-! ## Faults of valid expressions -/

variable {bound : String → Bool} {count : Int}

/-- There are rows for the constants of an expression, if it has any. -/
def HasRoom (count : Int) (expr : Expr α) : Prop :=
  ∀ node ∈ expr.preorder, ∀ value, node.value.label = .const value →
    0 ≤ count ∧ count < rowLimit

/-- With room for its constants, a node of an expression has too few children or
is a variable that is not bound, if anything is wrong with it. -/
theorem HasRoom.fault_cases {expr node : Expr α} (room : expr.HasRoom count)
    (member : node ∈ expr.preorder) {error : EvalError}
    (fault : faultOver? bound count node = some error) :
    (node.children.length < node.value.label.kind.arity ∧
      error = .missingArguments node.value.label.title node.value.id
        node.value.label.kind.arity node.children.length) ∨
    ∃ name, node.value.label = .var name ∧ bound name = false ∧ error = .unbound name := by
  rcases faultOver?_cases fault with few | unbound | ⟨value, label, none_long, -⟩
  · exact .inl few
  · exact .inr unbound
  · obtain ⟨natural, short⟩ := room node member value label
    have long : rowLength? count = some count.toNat := rowLength?_eq_some_iff.2 (by omega)
    rw [none_long] at long
    cases long

/-- The first fault is that of a node of the expression. -/
theorem exists_mem_preorder_of_firstFaultOver? {expr : Expr α} {error : EvalError}
    (first : expr.firstFaultOver? bound count = some error) :
    ∃ node ∈ expr.preorder, faultOver? bound count node = some error := by
  obtain ⟨node, member, fault⟩ := exists_faultOver?_of_firstFaultOver? first
  obtain ⟨whole, listed, rfl⟩ := exists_of_mem_evaluatedNodes member
  rw [faultOver?_evaluatedPart] at fault
  exact ⟨whole, listed, fault⟩

/-- With room for its constants, an expression is invalid if it has a fault. -/
theorem isInvalidity_of_firstFaultOver? {expr : Expr α} (room : expr.HasRoom count)
    {error : EvalError} (first : expr.firstFaultOver? bound count = some error) :
    error.isInvalidity = true := by
  obtain ⟨node, listed, fault⟩ := exists_mem_preorder_of_firstFaultOver? first
  rcases room.fault_cases listed fault with ⟨-, rfl⟩ | ⟨name, -, -, rfl⟩
  · rfl
  · rfl

/-- In a valid expression with room for its constants nothing is wrong exactly when
all of its variables are bound. -/
theorem firstFaultOver?_eq_none_iff [Scalar α] {expr : Expr α} (valid : expr.isValid = true)
    (room : expr.HasRoom count) :
    expr.firstFaultOver? bound count = none ↔
      ∀ name ∈ expr.variableNames, bound name = true := by
  have admitted := (isValid_iff.1 valid).1
  rw [firstFaultOver?, evaluatedPart_of_admitted admitted, List.findSome?_eq_none_iff]
  constructor
  · intro faultless name listed
    obtain ⟨⟨mark, children⟩, member, label⟩ := mem_variableNames_iff.1 listed
    have own : (if bound name then none else some (EvalError.unbound name)) = none := by
      rw [← faultOver?_var label children]
      exact faultless _ member
    by_cases free : bound name = true
    · exact free
    · rw [if_neg free] at own
      cases own
  · intro all_bound node member
    cases fault : faultOver? bound count node with
    | none => rfl
    | some error =>
      rcases room.fault_cases member fault with ⟨few, -⟩ | ⟨name, label, free, -⟩
      · have enough := Kind.arity_le_of_admits (admitted node member)
        exact absurd few (Nat.not_lt_of_le enough)
      · rw [all_bound name (mem_variableNames_iff.2 ⟨node, member, label⟩)] at free
        cases free

/-- An evaluation that lacks a child complains of a node with a number of children
that its kind does not admit. -/
theorem mem_arityViolations_of_firstFaultOver? {expr : Expr α} {title : String}
    {id : Option NodeId} {required found : Nat}
    (first : expr.firstFaultOver? bound count = some (.missingArguments title id required found)) :
    id ∈ expr.arityViolations := by
  obtain ⟨node, listed, fault⟩ := exists_mem_preorder_of_firstFaultOver? first
  rcases faultOver?_cases fault with ⟨few, same⟩ | ⟨name, -, -, same⟩ | ⟨value, -, -, same⟩
  · obtain ⟨-, rfl, -⟩ := EvalError.missingArguments.inj same
    have refused : hasAdmittedArity node = false := by
      refine Bool.eq_false_iff.2 ?_
      intro admitted
      exact absurd few (Nat.not_lt_of_le (Kind.arity_le_of_admits admitted))
    exact List.mem_map.2 ⟨node, List.mem_filter.2 ⟨listed, by rw [refused]; rfl⟩, rfl⟩
  · cases same
  · cases same

/-! ## Validation over samples -/

variable [Scalar α]

/-- Validation evaluates a valid expression, and answers what came of that. -/
theorem apply_isValidOn (domain : Domain) (expr : Expr α) (store : Store α) :
    (expr.isValidOn domain).apply store =
      if expr.isValid then
        match (expr.evaluate domain).apply store with
        | (.ok buffer, after) =>
          (.ok (decide (((after.read buffer).length : Int) = domain.sampleCount after)), after)
        | (.error error, after) =>
          if error.isInvalidity then (.ok false, after) else (.error error, after)
      else (.ok false, store) := by
  unfold isValidOn
  cases expr.isValid with
  | false => rfl
  | true =>
    simp only [if_true, EvalM.apply_tryCatch, EvalM.apply_bind]
    rcases (expr.evaluate domain).apply store with ⟨error | buffer, after⟩
    · dsimp only
      cases error.isInvalidity <;> rfl
    · rfl

section Samples

variable {rows : Bindings (List α)} {size : Option Int} {samples : Samples α}

/-- A valid expression has a value over samples if there is room for its constants
and all of its variables are bound. -/
theorem exists_row_of_isValid (made : Samples.ofRows rows size = .ok samples) (store : Store α)
    {expr : Expr α} (room : expr.HasRoom samples.count) (valid : expr.isValid = true)
    (bound : ∀ name ∈ expr.variableNames, (samples.rows.find? name).isSome = true) :
    ∃ row, (expr.evaluate (Domain.copyingOf samples store).1).row
        (Domain.copyingOf samples store).2 = .ok row ∧ (row.length : Int) = samples.count := by
  have faultless := (firstFaultOver?_eq_none_iff valid room).2 bound
  cases run : (expr.evaluate (Domain.copyingOf samples store).1).row
      (Domain.copyingOf samples store).2 with
  | error error =>
    rw [evaluate_copyingOf_eq_error_iff made, faultless] at run
    cases run
  | ok row =>
    have inferred := length_evaluate_copyingOf samples store expr
    rw [run] at inferred
    exact ⟨row, rfl, length?_eq_count (Samples.level made) inferred.symm⟩

/-- Validation over samples answers whenever there is room for constants, and the
answer is that the expression is valid and that its variables are bound. -/
theorem exists_answer_isValidOn (made : Samples.ofRows rows size = .ok samples)
    (store : Store α) {expr : Expr α} (room : expr.HasRoom samples.count) :
    ∃ answer, ((expr.isValidOn (Domain.copyingOf samples store).1).apply
        (Domain.copyingOf samples store).2).1 = .ok answer ∧
      (answer = true ↔ expr.isValid = true ∧
        ∀ name ∈ expr.variableNames, (samples.rows.find? name).isSome = true) := by
  rw [apply_isValidOn]
  cases valid : expr.isValid with
  | false => exact ⟨false, rfl, by simp⟩
  | true =>
    rw [if_pos rfl]
    rcases run : (expr.evaluate (Domain.copyingOf samples store).1).apply
      (Domain.copyingOf samples store).2 with ⟨error | buffer, after⟩
    · -- the fault that was found is a variable that is not bound
      have first := (evaluate_copyingOf_eq_error_iff made store expr error).1
        (EvalM.row_of_error run)
      dsimp only
      rw [if_pos (isInvalidity_of_firstFaultOver? room first)]
      refine ⟨false, rfl, ?_⟩
      rw [← firstFaultOver?_eq_none_iff valid room, first]
      simp
    · have faultless : expr.firstFaultOver? (fun name => (samples.rows.find? name).isSome)
          samples.count = none := by
        cases first : expr.firstFaultOver? (fun name => (samples.rows.find? name).isSome)
            samples.count with
        | none => rfl
        | some error =>
          rw [← evaluate_copyingOf_eq_error_iff made store, EvalM.row_of_ok run] at first
          cases first
      have bound := (firstFaultOver?_eq_none_iff valid room).1 faultless
      obtain ⟨row, result, length⟩ := exists_row_of_isValid made store room valid bound
      rw [EvalM.row_of_ok run] at result
      obtain rfl := Except.ok.inj result
      exact ⟨_, rfl, by simpa [length, Domain.copyingOf] using bound⟩

/-- Where there is room for its constants, validation of an expression over samples
answers, and says that each node has the children that it takes, that constants are
finite and that variables are bound.  An expression that is valid and whose
variables are bound has a value as long as the samples.  An evaluation complains
of no other children than validation does, and never of the lengths. -/
theorem validity_over_samples (made : Samples.ofRows rows size = .ok samples)
    (store : Store α) (expr : Expr α) :
    (expr.HasRoom samples.count →
      ∃ answer, ((expr.isValidOn (Domain.copyingOf samples store).1).apply
          (Domain.copyingOf samples store).2).1 = .ok answer ∧
        (answer = true ↔ (∀ node ∈ expr.preorder, IsSound node) ∧
          ∀ name ∈ expr.variableNames, (samples.rows.find? name).isSome = true)) ∧
    (expr.HasRoom samples.count → expr.isValid = true →
      (∀ name ∈ expr.variableNames, (samples.rows.find? name).isSome = true) →
      ∃ row, (expr.evaluate (Domain.copyingOf samples store).1).row
          (Domain.copyingOf samples store).2 = .ok row ∧ (row.length : Int) = samples.count) ∧
    (∀ title id required found,
      (expr.evaluate (Domain.copyingOf samples store).1).row (Domain.copyingOf samples store).2 =
        .error (.missingArguments title id required found) → id ∈ expr.arityViolations) ∧
    ∀ title id first other,
      (expr.evaluate (Domain.copyingOf samples store).1).row (Domain.copyingOf samples store).2 ≠
        .error (.differentLengths title id first other) := by
  refine ⟨?_, exists_row_of_isValid made store, ?_, ?_⟩
  · intro room
    obtain ⟨answer, answered, means⟩ := exists_answer_isValidOn made store room
    exact ⟨answer, answered, by rw [means, isValid_iff_isSound]⟩
  · intro title id required found failed
    rw [evaluate_copyingOf_eq_error_iff made] at failed
    exact mem_arityViolations_of_firstFaultOver? failed
  · intro title id first other failed
    rw [evaluate_copyingOf_eq_error_iff made] at failed
    exact firstFaultOver?_ne_differentLengths failed

end Samples

/-- The least of one and of a variable that is bound is valid and has a value. -/
theorem validity_over_samples_leastOfOne :
    Samples.ofRows [("x", [1, (2 : Float)])] none = .ok ⟨[("x", [1, 2])], 2⟩ ∧
      HasRoom 2 (leastOfOne "x") ∧
      ((isValidOn (Domain.copyingOf ⟨[("x", [1, 2])], 2⟩ Store.empty).1 (leastOfOne "x")).apply
        (Domain.copyingOf ⟨[("x", [1, 2])], 2⟩ Store.empty).2).1 = .ok true ∧
      ∃ row, (evaluate (Domain.copyingOf ⟨[("x", [1, 2])], 2⟩ Store.empty).1
        (leastOfOne "x")).row (Domain.copyingOf ⟨[("x", [1, 2])], 2⟩ Store.empty).2 = .ok row ∧
          (row.length : Int) = 2 := by
  have made : Samples.ofRows [("x", [1, (2 : Float)])] none = .ok ⟨[("x", [1, 2])], 2⟩ :=
    Samples.ofRows_singleton "x" [1, 2]
  have room : HasRoom 2 (leastOfOne "x") := fun _ _ _ _ => ⟨by decide, by decide⟩
  have finite : Binary64.isFinite 1 = true := by decide +kernel
  have nodes : (leastOfOne "x").preorder =
      [leastOfOne "x", .node ⟨.const 1, none⟩ [], .node ⟨.var "x", none⟩ []] := rfl
  have sound : ∀ node ∈ (leastOfOne "x").preorder, IsSound node := by
    intro node member
    simp only [nodes, List.mem_cons, List.not_mem_nil, or_false] at member
    rcases member with rfl | rfl | rfl
    · exact Nat.le_succ 1
    · exact ⟨rfl, finite⟩
    · exact rfl
  have bound : ∀ name ∈ (leastOfOne "x").variableNames,
      (Bindings.find? [("x", [1, (2 : Float)])] name).isSome = true := by
    intro name listed
    obtain ⟨node, member, label⟩ := mem_variableNames_iff.1 listed
    simp only [nodes, List.mem_cons, List.not_mem_nil, or_false] at member
    rcases member with rfl | rfl | rfl
    · cases label
    · cases label
    · cases label
      rfl
  have judged := validity_over_samples made Store.empty (leastOfOne "x")
  obtain ⟨answer, answered, means⟩ := judged.1 room
  rw [means.2 ⟨sound, bound⟩] at answered
  exact ⟨made, room, answered, judged.2.1 room (isValid_iff_isSound.2 sound) bound⟩

/-- With more samples than a row holds, a sound constant is neither called valid nor
invalid. -/
theorem isValidOn_constant_without_rows :
    ∃ samples : Samples Float, Samples.ofRows [] (some 1500000000000000000) = .ok samples ∧
      0 ≤ samples.count ∧
      (∀ node ∈ Tree.preorder (Tree.node ⟨.const 1, none⟩ [] : Expr Float), IsSound node) ∧
      (∀ name ∈ variableNames (Tree.node ⟨.const 1, none⟩ [] : Expr Float),
        (samples.rows.find? name).isSome = true) ∧
      ((isValidOn (Domain.copyingOf samples Store.empty).1
          (Tree.node ⟨.const 1, none⟩ [])).apply (Domain.copyingOf samples Store.empty).2).1 =
        .error (.notALength 1500000000000000000) := by
  have sound : ∀ node ∈ Tree.preorder (Tree.node ⟨.const 1, none⟩ [] : Expr Float),
      IsSound node := by
    intro node member
    rw [Tree.preorder_node, List.flatMap_nil, List.mem_singleton] at member
    have finite : Binary64.isFinite 1 = true := by decide +kernel
    rw [member]
    exact ⟨rfl, finite⟩
  refine ⟨⟨[], 1500000000000000000⟩, Samples.ofRows_nil _, by decide, sound, ?_, ?_⟩
  · intro name listed
    obtain ⟨node, member, label⟩ := mem_variableNames_iff.1 listed
    rw [Tree.preorder_node, List.flatMap_nil, List.mem_singleton] at member
    rw [member] at label
    cases label
  · rw [apply_isValidOn, isValid_iff_isSound.2 sound]
    rfl

end Expr

end Formulary
