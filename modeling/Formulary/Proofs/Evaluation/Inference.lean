import Formulary.Proofs.Evaluation.Leaves
import Formulary.Proofs.Evaluation.Lengths

/-!
# Inference of lengths

The length of a value is inferred from the lengths of the rows of a domain.  The
inference looks at no constant, and at no node that is not evaluated.  It finds
one length for all that is evaluated on the way to a value.

Main results:

- Theorem `Expr.length?_outline`: the inference looks at no constant.
- Theorem `Expr.length?_op_eq_ok_iff`: an operation has a length exactly when all
  that it uses has that length.
- Theorem `Expr.length?_of_mem_evaluatedNodes`: whatever is evaluated on the way
  to a value is as long as the value.
- Theorem `Expr.length?_eq_count`: with rows of one length, values have that
  length.
-/

namespace Formulary

variable {α : Type}

/-! ## Inference without constants -/

namespace Expr

variable {lengthOf : String → Option Nat} {count : Int}

/-- The length of the value of a node does not depend on a constant. -/
theorem lengthNode_outline (mark : Mark α) :
    lengthNode lengthOf count mark.outline = lengthNode lengthOf count mark := by
  obtain ⟨label, id⟩ := mark
  cases label <;> rfl

/-- The inference looks at no constant. -/
theorem length?_outline (expr : Expr α) :
    expr.outline.length? lengthOf count = expr.length? lengthOf count := by
  induction expr using Tree.induct with
  | step mark children ih =>
    have same : (children.map outline).map (length? lengthOf count) =
        children.map (length? lengthOf count) := by
      rw [List.map_map]
      exact List.map_congr_left ih
    rw [outline_node, length?_node, length?_node, lengthNode_outline, same]

end Expr

/-! ## The children that are used -/

/-- Of the children that an operation uses, it uses all. -/
theorem Operation.take_used_take {γ : Type} (operation : Operation) (children : List γ) :
    (children.take (operation.used children.length)).take
        (operation.used (children.take (operation.used children.length)).length) =
      children.take (operation.used children.length) := by
  rw [List.take_take]
  cases operation with
  | unary op => rfl
  | binary op => rfl
  | reduction op => simp [Operation.used]

/-- Dropping children that are not used does not change what a node lacks. -/
theorem Mark.checkArity_take {γ : Type} {mark : Mark α} {operation : Operation}
    (label : mark.label = .op operation) (children : List γ) :
    mark.checkArity (children.take (operation.used children.length)).length =
      mark.checkArity children.length := by
  have least : (operation.kind.arity ≤ children.length ∧
        operation.kind.arity ≤ (children.take (operation.used children.length)).length) ∨
      (children.take (operation.used children.length)).length = children.length := by
    rw [List.length_take]
    cases operation with
    | unary op => simp only [Operation.kind, Kind.arity, Operation.used]; omega
    | binary op => simp only [Operation.kind, Kind.arity, Operation.used]; omega
    | reduction op => exact .inr (Nat.min_self _)
  rcases least with ⟨enough, still⟩ | same
  · rw [Mark.checkArity_eq_ok_iff.2 (by rwa [label, Label.kind]),
      Mark.checkArity_eq_ok_iff.2 (by rwa [label, Label.kind])]
  · rw [same]

namespace Expr

variable {lengthOf : String → Option Nat} {count : Int}

/-- The inference looks at the part that is evaluated. -/
theorem length?_evaluatedPart (expr : Expr α) :
    expr.evaluatedPart.length? lengthOf count = expr.length? lengthOf count := by
  induction expr using Tree.induct with
  | step mark children ih =>
    rw [evaluatedPart_node]
    cases label : mark.label with
    | const value => rw [length?_const label, length?_const label]
    | var name => rw [length?_var label, length?_var label]
    | op operation =>
      have same : ((children.take (operation.used children.length)).map evaluatedPart).map
          (length? lengthOf count) =
          (children.take (operation.used children.length)).map (length? lengthOf count) := by
        rw [List.map_map]
        exact List.map_congr_left fun child member => ih child (List.mem_of_mem_take member)
      rw [length?_op label, length?_op label, Label.used, ← List.map_take, List.length_map,
        Mark.checkArity_take label, ← List.map_take, Operation.take_used_take, same]

end Expr

/-! ## Lengths of what is evaluated -/

/-- Results one after another succeed exactly when each of them does. -/
theorem inSequence_eq_ok_iff {ε β : Type} {results : List (Except ε β)} {values : List β} :
    inSequence results = .ok values ↔ results = values.map .ok := by
  induction results generalizing values with
  | nil => cases values <;> simp [inSequence, pure, Except.pure]
  | cons result rest ih =>
    cases result with
    | error error =>
      have failed : inSequence (.error error :: rest) = (.error error : Except ε (List β)) := rfl
      rw [failed]
      cases values <;> simp
    | ok value =>
      rw [inSequence_ok]
      constructor
      · intro found
        cases tail : inSequence rest with
        | error error =>
          rw [tail] at found
          cases found
        | ok others =>
          rw [tail] at found
          obtain rfl := Except.ok.inj found
          rw [ih.1 tail, List.map_cons]
      · intro same
        cases values with
        | nil => cases same
        | cons first others =>
          obtain ⟨head, tail⟩ := List.cons.inj same
          rw [ih.2 tail, Except.ok.inj head]
          rfl

/-- The first failure of results one after another is that of them all. -/
theorem inSequence_eq_error {ε β γ : Type} {items : List γ} {resultOf : γ → Except ε β}
    {errorOf : γ → Option ε} {error : ε}
    (fails : ∀ item ∈ items, ∀ error, errorOf item = some error → resultOf item = .error error)
    (succeeds : ∀ item ∈ items, errorOf item = none → ∃ value, resultOf item = .ok value)
    (first : items.findSome? errorOf = some error) :
    inSequence (items.map resultOf) = .error error := by
  induction items with
  | nil => cases first
  | cons item rest ih =>
    rw [List.map_cons]
    cases fault : errorOf item with
    | some own =>
      rw [List.findSome?_cons, fault] at first
      rw [fails item List.mem_cons_self own fault, ← Option.some.inj first]
      rfl
    | none =>
      rw [List.findSome?_cons, fault] at first
      obtain ⟨value, result⟩ := succeeds item List.mem_cons_self fault
      rw [result, inSequence_ok, ih
        (fun other member => fails other (List.mem_cons_of_mem _ member))
        (fun other member => succeeds other (List.mem_cons_of_mem _ member)) first]
      rfl

namespace Expr

variable {lengthOf : String → Option Nat} {count : Int} {mark : Mark α} {operation : Operation}

/-- Lengths agree on the first one exactly when all of them are the same. -/
theorem checkLengths_and_headD_iff {lengths : List Nat} (nonempty : lengths ≠ []) {length : Nat} :
    mark.checkLengths lengths = .ok () ∧ lengths.headD 0 = length ↔
      ∀ own ∈ lengths, own = length := by
  cases lengths with
  | nil => exact absurd rfl nonempty
  | cons first rest =>
    rw [Mark.checkLengths_eq_ok_iff, List.headD_cons, List.forall_mem_cons]
    constructor
    · rintro ⟨same, rfl⟩
      exact ⟨rfl, same⟩
    · rintro ⟨rfl, same⟩
      exact ⟨same, rfl⟩

/-- An operation with enough children has a length exactly when all that it uses
have lengths and these agree. -/
theorem length?_op_eq_ok_iff_exists (label : mark.label = .op operation)
    {children : List (Expr α)} (enough : mark.checkArity children.length = .ok ()) {length : Nat} :
    length? lengthOf count (Tree.node mark children) = .ok length ↔
      ∃ lengths, (children.take (operation.used children.length)).map (length? lengthOf count) =
          lengths.map .ok ∧
        mark.checkLengths lengths = .ok () ∧ lengths.headD 0 = length := by
  rw [length?_op label, enough]
  simp only [← inSequence_eq_ok_iff]
  cases inSequence ((children.take (operation.used children.length)).map
      (length? lengthOf count)) with
  | error error => simp
  | ok lengths => cases agree : mark.checkLengths lengths <;> simp [agree]

/-- An operation has a length exactly when it has enough children and all that it
uses have that length.  No argument is stretched. -/
theorem length?_op_eq_ok_iff (label : mark.label = .op operation) {children : List (Expr α)}
    {length : Nat} :
    length? lengthOf count (Tree.node mark children) = .ok length ↔
      mark.checkArity children.length = .ok () ∧
        ∀ child ∈ children.take (operation.used children.length),
          child.length? lengthOf count = .ok length := by
  cases enough : mark.checkArity children.length with
  | error error => simp [length?_op label, enough]
  | ok checked =>
    rw [length?_op_eq_ok_iff_exists label enough]
    simp only [true_and]
    have given : 0 < (children.take (operation.used children.length)).length := by
      rw [Mark.checkArity_eq_ok_iff, label] at enough
      exact Nat.lt_of_lt_of_le operation.arity_pos (operation.arity_le_length_take enough)
    generalize children.take (operation.used children.length) = used at given ⊢
    constructor
    · rintro ⟨lengths, each, agree⟩
      have nonempty : lengths ≠ [] := by
        rintro rfl
        rw [List.map_nil, List.map_eq_nil_iff] at each
        simp [each] at given
      intro child member
      have inside : child.length? lengthOf count ∈ lengths.map .ok :=
        each ▸ List.mem_map_of_mem member
      obtain ⟨own, listed, result⟩ := List.mem_map.1 inside
      rw [← result, (checkLengths_and_headD_iff nonempty).1 agree own listed]
    · intro same
      have nonempty : List.replicate used.length length ≠ [] := by
        simpa [List.replicate_eq_nil_iff] using Nat.ne_of_gt given
      refine ⟨List.replicate used.length length, ?_, ?_⟩
      · rw [List.map_replicate, List.eq_replicate_iff]
        refine ⟨List.length_map _, ?_⟩
        intro result inside
        obtain ⟨child, member, rfl⟩ := List.mem_map.1 inside
        exact same child member
      · exact (checkLengths_and_headD_iff nonempty).2 fun _ => List.eq_of_mem_replicate

/-- An operation over children that fail, or have one length, fails with the first
of them, or has that length. -/
theorem length?_op_eq_findSome? (label : mark.label = .op operation) {children : List (Expr α)}
    (enough : mark.checkArity children.length = .ok ()) {length : Nat}
    {errorOf : Expr α → Option EvalError}
    (each : ∀ child ∈ children.take (operation.used children.length),
      length? lengthOf count child =
        match errorOf child with
        | some error => .error error
        | none => .ok length) :
    length? lengthOf count (Tree.node mark children) =
      match (children.take (operation.used children.length)).findSome? errorOf with
      | some error => .error error
      | none => .ok length := by
  cases first : (children.take (operation.used children.length)).findSome? errorOf with
  | some error =>
    have failed : inSequence ((children.take (operation.used children.length)).map
        (length? lengthOf count)) = .error error := by
      refine inSequence_eq_error ?_ ?_ first
      · intro child member error own
        rw [each child member, own]
      · intro child member faultless
        exact ⟨length, by rw [each child member, faultless]⟩
    rw [length?_op label, enough, failed]
  | none =>
    rw [length?_op_eq_ok_iff label]
    refine ⟨enough, ?_⟩
    intro child member
    rw [each child member, List.findSome?_eq_none_iff.1 first child member]

/-- Whatever is evaluated on the way to a value is as long as the value. -/
theorem length?_of_mem_evaluatedNodes {expr : Expr α} {length : Nat}
    (found : expr.length? lengthOf count = .ok length) :
    ∀ node ∈ expr.evaluatedNodes, node.length? lengthOf count = .ok length := by
  induction expr using Tree.induct with
  | step mark children ih =>
    intro node member
    rw [evaluatedNodes_node] at member
    rcases List.mem_cons.1 member with rfl | below
    · rw [length?_evaluatedPart, found]
    · obtain ⟨child, used, inside⟩ := List.mem_flatMap.1 below
      cases label : mark.label with
      | const value => simp [label, Label.used] at used
      | var name => simp [label, Label.used] at used
      | op operation =>
        rw [label] at used
        have same := ((length?_op_eq_ok_iff label).1 found).2 child used
        exact ih child (List.mem_of_mem_take used) same node inside

/-- With rows of one length, every value has that length. -/
theorem length?_eq_count
    (level : ∀ name length, lengthOf name = some length → (length : Int) = count)
    {expr : Expr α} {length : Nat} (found : expr.length? lengthOf count = .ok length) :
    (length : Int) = count := by
  induction expr using Tree.induct with
  | step mark children ih =>
    cases label : mark.label with
    | const value =>
      rw [length?_const label] at found
      cases long : rowLength? count with
      | none =>
        rw [long] at found
        cases found
      | some own =>
        rw [long] at found
        rw [← Except.ok.inj found, (rowLength?_eq_some_iff.1 long).1]
    | var name =>
      rw [length?_var label] at found
      cases given : lengthOf name with
      | none =>
        rw [given] at found
        cases found
      | some own =>
        rw [given] at found
        rw [← Except.ok.inj found, level name own given]
    | op operation =>
      obtain ⟨enough, same⟩ := (length?_op_eq_ok_iff label).1 found
      rw [Mark.checkArity_eq_ok_iff, label] at enough
      obtain ⟨first, used⟩ := List.exists_mem_of_length_pos
        (Nat.lt_of_lt_of_le operation.arity_pos (operation.arity_le_length_take enough))
      exact ih first (List.mem_of_mem_take used) (same first used)

end Expr

end Formulary
