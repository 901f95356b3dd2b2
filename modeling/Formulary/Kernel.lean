import Formulary.Scalar

/-!
# Kernels

A kernel applies an operation to whole rows of samples.  Functions are applied
index by index; a reduction of one row spreads its least or greatest sample over
the row, and a reduction of several rows goes index by index.

Main results:

- Theorem `Operation.length_combine`: the result is as long as the first row if
  the rows are of one length.
- Theorem `Reduction.length_across`: the same for a reduction of several rows.
-/

namespace Formulary

variable {α : Type} [Scalar α]

/-! ## Reductions -/

namespace Reduction

/-- The least or greatest sample of a row at each of its indices. -/
def within (op : Reduction) : List α → List α
  | [] => []
  | first :: rest => List.replicate (rest.length + 1) (rest.foldl (Scalar.reduce op) first)

/-- The least or greatest sample of several rows at each index of the first.
The rows are taken in order, from the start of the reduction. -/
def across (op : Reduction) (rows : List (List α)) : List α :=
  rows.foldl (List.zipWith (Scalar.reduce op))
    (List.replicate (rows.headD []).length (Scalar.start op))

@[simp]
theorem length_within (op : Reduction) (row : List α) : (op.within row).length = row.length := by
  cases row <;> simp [within]

theorem length_foldl_zipWith (op : Reduction) (rows : List (List α)) (running : List α)
    (h : ∀ row ∈ rows, row.length = running.length) :
    (rows.foldl (List.zipWith (Scalar.reduce op)) running).length = running.length := by
  induction rows generalizing running with
  | nil => rfl
  | cons row rest ih =>
    have same : (List.zipWith (Scalar.reduce op) running row).length = running.length := by
      simp [h row List.mem_cons_self]
    rw [List.foldl_cons, ih, same]
    intro other hother
    rw [same]
    exact h other (List.mem_cons_of_mem _ hother)

/-- A reduction of rows of one length has that length. -/
theorem length_across (op : Reduction) {rows : List (List α)} {count : Nat}
    (nonempty : rows ≠ []) (h : ∀ row ∈ rows, row.length = count) :
    (op.across rows).length = count := by
  have first : (rows.headD []).length = count := by
    cases rows with
    | nil => exact absurd rfl nonempty
    | cons row rest => exact h row List.mem_cons_self
  rw [across, length_foldl_zipWith]
  · rw [List.length_replicate, first]
  · intro row hrow
    rw [List.length_replicate, first, h row hrow]

end Reduction

/-! ## Operations on the rows of the arguments -/

/-- The value of an operation on the rows of its evaluated arguments. -/
def Operation.combine (operation : Operation) (rows : List (List α)) : List α :=
  match operation, rows with
  | .unary op, row :: _ => row.map (Scalar.unary op)
  | .binary op, left :: right :: _ => List.zipWith (Scalar.binary op) left right
  | .reduction op, [row] => op.within row
  | .reduction op, rows => op.across rows
  | _, _ => []

/-- The number of children, of the `count` that there are, whose values an
operation uses. -/
def Operation.used (operation : Operation) (count : Nat) : Nat :=
  match operation with
  | .unary _ => 1
  | .binary _ => 2
  | .reduction _ => count

/-- The value of an operation on rows of one length has that length. -/
theorem Operation.length_combine (operation : Operation) {rows : List (List α)} {count : Nat}
    (enough : operation.kind.arity ≤ rows.length) (h : ∀ row ∈ rows, row.length = count) :
    (operation.combine rows).length = count := by
  cases operation with
  | unary op =>
    match rows, enough with
    | row :: _, _ => simpa [combine] using h row List.mem_cons_self
  | binary op =>
    match rows, enough with
    | left :: right :: _, _ =>
      have hl := h left List.mem_cons_self
      have hr := h right (List.mem_cons_of_mem _ List.mem_cons_self)
      simp [combine, hl, hr]
  | reduction op =>
    match rows, enough with
    | [row], _ => simpa [combine] using h row List.mem_cons_self
    | first :: second :: rest, _ =>
      exact op.length_across (List.cons_ne_nil _ _) h

/-! ## Kernels called by themselves -/

/-- Why a kernel cannot be applied. -/
inductive KernelError
  | notUnary
  | notBinary
  | differentLengths
  | noRows
deriving DecidableEq, Repr

namespace Kernel

/-- A row of `count` samples: the row itself, or a single sample repeated. -/
def stretch (count : Nat) (row : List α) : Except KernelError (List α) :=
  if row.length = count then .ok row
  else match row with
    | [sample] => .ok (List.replicate count sample)
    | _ => .error .differentLengths

/-- Applies a function of one argument. -/
def unary (operation : Operation) (row : List α) : Except KernelError (List α) :=
  match operation with
  | .unary _ => .ok (operation.combine [row])
  | _ => .error .notUnary

/-- Applies a function of two arguments.  A single right sample serves the whole
left row. -/
def binary (operation : Operation) (left right : List α) : Except KernelError (List α) :=
  match operation with
  | .binary _ => do
    let right ← stretch left.length right
    return operation.combine [left, right]
  | _ => .error .notBinary

/-- The reduction that an operation selects: the minimum selects itself, and
everything else the maximum. -/
def selectReduction (operation : Operation) : Reduction :=
  if operation = .reduction .min then .min else .max

/-- Reduces a row to its least or greatest sample at each index. -/
def within (operation : Operation) (row : List α) : List α :=
  (selectReduction operation).within row

/-- Reduces rows index by index.  The first row gives the length; single samples
of the others are repeated. -/
def across (operation : Operation) (rows : List (List α)) : Except KernelError (List α) :=
  match rows with
  | [] => .error .noRows
  | first :: _ => do
    let rows ← rows.mapM (stretch first.length)
    return (selectReduction operation).across rows

end Kernel

end Formulary
