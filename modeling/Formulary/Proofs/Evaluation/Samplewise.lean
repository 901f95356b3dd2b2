import Formulary.Proofs.Evaluation.Inference
import Formulary.Proofs.Evaluation.Refinement

/-!
# Values sample by sample

The value of an expression is a row that is made of whole rows.  This module shows
that each sample of it is the value of the expression over the samples that the
variables have there, and depends on no others.  Only a reduction of a single row
looks at all samples of it.

Main results:

- Definition `Operation.onColumn?`: the value of an operation on samples.
- Definition `Expr.sample?`: the value of an expression on samples.
- Definition `Expr.ReducesSeveral`: no reduction that is evaluated has a single row.
- Theorem `Expr.getElem?_value`: a sample of the value is the value on the samples
  there.
-/

namespace Formulary

variable {α : Type}

/-! ## Operations on samples -/

theorem column_cons {row : List α} {index : Nat} (inside : index < row.length)
    (more : List (List α)) : column (row :: more) index = row[index] :: column more index := by
  rw [column, List.filterMap_cons, List.getElem?_eq_getElem inside]
  rfl

variable [Scalar α]

/-- The value of an operation on one sample of each of its arguments. -/
def Operation.onColumn? (operation : Operation) (samples : List α) : Option α :=
  match operation, samples with
  | .unary op, x :: _ => some (Scalar.unary op x)
  | .binary op, x :: y :: _ => some (Scalar.binary op x y)
  | .reduction op, samples => some (samples.foldl (Scalar.reduce op) (Scalar.start op))
  | _, _ => none

/-- The value of an operation on rows of one length has at each index the value on the
samples there, unless it is a reduction of a single row. -/
theorem Operation.getElem?_pointwise (operation : Operation) {rows : List (List α)}
    {count index : Nat} (enough : operation.kind.arity ≤ rows.length)
    (several : ∀ op, operation = .reduction op → rows.length ≠ 1)
    (same : ∀ row ∈ rows, row.length = count) (inside : index < count) :
    (operation.pointwise rows)[index]? = operation.onColumn? (column rows index) := by
  cases operation with
  | unary op =>
    rcases rows with _ | ⟨row, more⟩
    · exact absurd enough (by simp [kind, Kind.arity])
    · have here : index < row.length := by rwa [same row List.mem_cons_self]
      rw [column_cons here, pointwise, List.getElem?_map, List.getElem?_eq_getElem here]
      rfl
  | binary op =>
    rcases rows with _ | ⟨left, _ | ⟨right, more⟩⟩
    · exact absurd enough (by simp [kind, Kind.arity])
    · exact absurd enough (by simp [kind, Kind.arity])
    · have here : index < left.length := by rwa [same left List.mem_cons_self]
      have there : index < right.length := by
        rwa [same right (List.mem_cons_of_mem _ List.mem_cons_self)]
      have pair : (left.zip right)[index]? = some (left[index], right[index]) := by
        rw [List.getElem?_zip_eq_some]
        exact ⟨List.getElem?_eq_getElem here, List.getElem?_eq_getElem there⟩
      rw [column_cons here, column_cons there, pointwise, List.getElem?_map, pair]
      rfl
  | reduction op =>
    rcases rows with _ | ⟨first, _ | ⟨second, more⟩⟩
    · exact absurd enough (by simp [kind, Kind.arity])
    · exact absurd rfl (several op rfl)
    · rw [← op.across_eq_pointwise first second more same,
        op.getElem?_across (List.cons_ne_nil _ _) same inside]
      rfl

namespace Expr

/-! ## Expressions on samples -/

/-- The value of a node from the values of its children on samples. -/
def sampleNode (sampleOf : String → Option α) (mark : Mark α) (children : List (Option α)) :
    Option α :=
  match mark.label with
  | .const value => some value
  | .var name => sampleOf name
  | .op operation =>
    operation.onColumn? ((children.take (operation.used children.length)).filterMap id)

/-- The value of an expression whose variables have one sample each, given by
`sampleOf`. -/
def sample? (sampleOf : String → Option α) (expr : Expr α) : Option α :=
  Tree.fold (sampleNode sampleOf) expr

variable {sampleOf : String → Option α} {mark : Mark α}

theorem sample?_const {value : α} (label : mark.label = .const value) (children : List (Expr α)) :
    sample? sampleOf (Tree.node mark children) = some value := by
  rw [sample?, Tree.fold_node, sampleNode, label]

theorem sample?_var {name : String} (label : mark.label = .var name) (children : List (Expr α)) :
    sample? sampleOf (Tree.node mark children) = sampleOf name := by
  rw [sample?, Tree.fold_node, sampleNode, label]

theorem sample?_op {operation : Operation} (label : mark.label = .op operation)
    (children : List (Expr α)) :
    sample? sampleOf (Tree.node mark children) =
      operation.onColumn?
        ((children.take (operation.used children.length)).filterMap (sample? sampleOf)) := by
  rw [sample?, Tree.fold_node, sampleNode, label]
  dsimp only
  rw [List.length_map, ← List.map_take, List.filterMap_map]
  rfl

/-! ## Reductions of several arguments -/

/-- No reduction that is evaluated has exactly one argument. -/
def ReducesSeveral {α : Type} (expr : Expr α) : Prop :=
  ∀ node ∈ expr.evaluatedNodes, ∀ op, node.value.label = .op (.reduction op) →
    node.children.length ≠ 1

theorem ReducesSeveral.root {α : Type} {mark : Mark α} {children : List (Expr α)} {op : Reduction}
    (several : ReducesSeveral (Tree.node mark children)) (label : mark.label = .op (.reduction op)) :
    children.length ≠ 1 := by
  have own := several (evaluatedPart (Tree.node mark children))
    (by rw [evaluatedNodes_node]; exact List.mem_cons_self) op
    (by rw [value_evaluatedPart]; exact label)
  rw [evaluatedPart_node, label, Tree.children_node, Label.used, Operation.used,
    List.length_take, List.length_map, Nat.min_self] at own
  exact own

theorem ReducesSeveral.child {α : Type} {mark : Mark α} {children : List (Expr α)}
    (several : ReducesSeveral (Tree.node mark children)) {child : Expr α}
    (used : child ∈ children.take (mark.label.used children.length)) : child.ReducesSeveral := by
  intro node member
  refine several node ?_
  rw [evaluatedNodes_node]
  exact List.mem_cons_of_mem _ (List.mem_flatMap.2 ⟨child, used, member⟩)

/-! ## Values sample by sample -/

variable {rowOf : String → Option (List α)} {count : Int}

/-- The samples that the values of several expressions have at an index, if those of each
are given by `entryOf`. -/
theorem column_values {exprs : List (Expr α)} {rows : List (List α)} {index : Nat}
    {entryOf : Expr α → Option α}
    (each : ∀ expr ∈ exprs, ∀ row ∈ rows, expr.value? rowOf count = .ok row →
      row[index]? = entryOf expr)
    (values : exprs.map (value? rowOf count) = rows.map .ok) :
    column rows index = exprs.filterMap entryOf := by
  induction exprs generalizing rows with
  | nil =>
    obtain rfl := List.map_eq_nil_iff.1 values.symm
    rfl
  | cons expr exprs ih =>
    cases rows with
    | nil => cases values
    | cons row rows =>
      obtain ⟨head, tail⟩ := List.cons.inj values
      have rest := ih (fun other member row listed => each other (List.mem_cons_of_mem _ member)
        row (List.mem_cons_of_mem _ listed)) tail
      rw [column, List.filterMap_cons, List.filterMap_cons,
        each expr List.mem_cons_self row List.mem_cons_self head, ← rest]
      rfl

/-- There are as many values as expressions. -/
theorem length_values {exprs : List (Expr α)} {rows : List (List α)}
    (values : exprs.map (value? rowOf count) = rows.map .ok) : rows.length = exprs.length := by
  have lengths := congrArg List.length values
  rw [List.length_map, List.length_map] at lengths
  exact lengths.symm

/-- An operation has a value when it has enough arguments, and these have values of
one length. -/
theorem exists_rows_of_value?_op {operation : Operation} (label : mark.label = .op operation)
    {children : List (Expr α)} {row : List α}
    (found : value? rowOf count (Tree.node mark children) = .ok row) :
    ∃ rows, (children.take (operation.used children.length)).map (value? rowOf count) =
        rows.map .ok ∧
      operation.kind.arity ≤ rows.length ∧ (∀ own ∈ rows, own.length = row.length) ∧
      row = operation.pointwise rows := by
  rw [value?_op label] at found
  cases enough : mark.checkArity children.length with
  | error error =>
    rw [enough] at found
    cases found
  | ok checked =>
    rw [enough] at found
    dsimp only at found
    split at found
    · cases found
    · next rows values =>
      rw [inSequence_eq_ok_iff] at values
      rw [Mark.checkArity_eq_ok_iff, label] at enough
      have given : operation.kind.arity ≤ rows.length := by
        rw [length_values values]
        exact operation.arity_le_length_take enough
      split at found
      · cases found
      · next agree =>
        obtain rfl := Except.ok.inj found
        refine ⟨rows, values, given, ?_, rfl⟩
        cases rows with
        | nil => exact absurd given (Nat.not_le_of_lt operation.arity_pos)
        | cons first rest =>
          have same := Mark.length_eq_of_checkLengths agree
          rw [operation.length_pointwise given same]
          exact same

/-- A sample of the value of an expression is the value of the expression on the
samples that its variables have at the same index. -/
theorem getElem?_value {expr : Expr α} (several : expr.ReducesSeveral) {row : List α}
    (found : expr.value? rowOf count = .ok row) {index : Nat} (inside : index < row.length) :
    row[index]? = expr.sample? fun name => (rowOf name).bind (·[index]?) := by
  induction expr using Tree.induct generalizing row with
  | step mark children ih =>
    cases label : mark.label with
    | const value =>
      rw [value?_const label, constantRow] at found
      cases long : rowLength? count with
      | none =>
        rw [long] at found
        cases found
      | some length =>
        rw [long] at found
        obtain rfl := Except.ok.inj found
        rw [List.length_replicate] at inside
        rw [sample?_const label, List.getElem?_replicate, if_pos inside]
    | var name =>
      rw [value?_var label] at found
      rw [sample?_var label]
      cases bound : rowOf name with
      | none =>
        rw [bound] at found
        cases found
      | some own =>
        rw [bound] at found
        rw [Except.ok.inj found, Option.bind_some]
    | op operation =>
      obtain ⟨rows, values, enough, same, rfl⟩ := exists_rows_of_value?_op label found
      have single : ∀ op, operation = .reduction op → rows.length ≠ 1 := by
        rintro op rfl
        rw [length_values values, Operation.used, List.take_length]
        exact several.root label
      rw [sample?_op label, operation.getElem?_pointwise enough single same inside,
        column_values _ values]
      intro child used own listed value
      have used_here : child ∈ children.take (mark.label.used children.length) := by
        rw [label]
        exact used
      refine ih child (List.mem_of_mem_take used) (several.child used_here) value ?_
      rw [same own listed]
      exact inside

end Expr

end Formulary
