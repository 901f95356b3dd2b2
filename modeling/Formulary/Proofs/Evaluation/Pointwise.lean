import Formulary.Evaluation.Denotation

/-!
# Kernels index by index

Kernels work on whole rows.  This module shows that on rows of one length they
give what their operations give index by index.

Main results:

- Theorem `Reduction.getElem?_across`: a reduction of several rows at an index.
- Theorem `Operation.combine_eq_pointwise`: kernels work index by index.
-/

namespace Formulary

variable {α : Type} [Scalar α]

namespace Reduction

/-- Folding rows into a running one folds the samples at each index. -/
theorem getElem?_foldl_zipWith (op : Reduction) {rows : List (List α)} {running : List α}
    {index : Nat} {start : α} (here : running[index]? = some start)
    (long : ∀ row ∈ rows, index < row.length) :
    (rows.foldl (List.zipWith (Scalar.reduce op)) running)[index]? =
      some ((column rows index).foldl (Scalar.reduce op) start) := by
  induction rows generalizing running start with
  | nil => exact here
  | cons row rest ih =>
    have inside : index < row.length := long row List.mem_cons_self
    have sample : row[index]? = some row[index] := List.getElem?_eq_getElem inside
    have next : (List.zipWith (Scalar.reduce op) running row)[index]? =
        some (Scalar.reduce op start row[index]) := by
      rw [List.getElem?_zipWith, here, sample]
    have samples : column (row :: rest) index = row[index] :: column rest index := by
      rw [column, List.filterMap_cons, sample]
      rfl
    rw [List.foldl_cons, samples, List.foldl_cons]
    exact ih next fun other member => long other (List.mem_cons_of_mem _ member)

/-- A reduction of several rows of one length is, at each index, the reduction of
the samples there. -/
theorem getElem?_across (op : Reduction) {rows : List (List α)} {count index : Nat}
    (nonempty : rows ≠ []) (same : ∀ row ∈ rows, row.length = count) (inside : index < count) :
    (op.across rows)[index]? =
      some ((column rows index).foldl (Scalar.reduce op) (Scalar.start op)) := by
  have first : (rows.headD []).length = count := by
    cases rows with
    | nil => exact absurd rfl nonempty
    | cons row rest => exact same row List.mem_cons_self
  have start : (List.replicate (rows.headD []).length (Scalar.start op : α))[index]? =
      some (Scalar.start op) := by
    rw [first, List.getElem?_replicate, if_pos inside]
  refine op.getElem?_foldl_zipWith start ?_
  intro row member
  rw [same row member]
  exact inside

/-- The reduction of one row gives every sample of it the same value. -/
theorem within_cons (op : Reduction) (first : α) (rest : List α) :
    op.within (first :: rest) =
      (first :: rest).map fun _ => rest.foldl (Scalar.reduce op) first := by
  rw [within, List.map_const', List.length_cons]

end Reduction

/-- A reduction of at least two rows of one length goes index by index. -/
theorem Reduction.across_eq_pointwise (op : Reduction) (first second : List α)
    (more : List (List α)) {count : Nat}
    (same : ∀ row ∈ first :: second :: more, row.length = count) :
    op.across (first :: second :: more) =
      (Operation.reduction op).pointwise (first :: second :: more) := by
  have width : first.length = count := same first List.mem_cons_self
  have length : (op.across (first :: second :: more)).length = count :=
    op.length_across (List.cons_ne_nil _ _) same
  have columns : (Operation.reduction op).pointwise (first :: second :: more) =
      (List.range count).map fun index =>
        (column (first :: second :: more) index).foldl (Scalar.reduce op)
          (Scalar.start op) := by
    rw [← width]
    cases first <;> rfl
  rw [columns]
  apply List.ext_getElem?
  intro index
  by_cases inside : index < count
  · rw [op.getElem?_across (List.cons_ne_nil _ _) same inside, List.getElem?_map,
      List.getElem?_range inside]
    rfl
  · have outside : count ≤ index := Nat.le_of_not_lt inside
    rw [List.getElem?_eq_none (by rw [length]; exact outside),
      List.getElem?_eq_none (by rw [List.length_map, List.length_range]; exact outside)]

/-- On rows of one length a kernel gives what its operation gives index by
index. -/
theorem Operation.combine_eq_pointwise (operation : Operation) {rows : List (List α)}
    {count : Nat} (enough : operation.kind.arity ≤ rows.length)
    (same : ∀ row ∈ rows, row.length = count) :
    operation.combine rows = operation.pointwise rows := by
  cases operation with
  | unary op =>
    rcases rows with _ | ⟨row, more⟩
    · exact absurd enough (by simp [kind, Kind.arity])
    · rfl
  | binary op =>
    rcases rows with _ | ⟨left, _ | ⟨right, more⟩⟩
    · exact absurd enough (by simp [kind, Kind.arity])
    · exact absurd enough (by simp [kind, Kind.arity])
    · rw [combine, pointwise, List.zip, List.map_zipWith]
  | reduction op =>
    rcases rows with _ | ⟨first, _ | ⟨second, more⟩⟩
    · exact absurd enough (by simp [kind, Kind.arity])
    · cases first with
      | nil => rfl
      | cons first rest => exact op.within_cons first rest
    · exact op.across_eq_pointwise first second more same

end Formulary
