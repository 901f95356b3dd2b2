import Formulary.Expr.Basic
import Formulary.Store

/-!
# Computations in a store

Evaluation is a computation that reads, adds and overwrites buffers of a store
and may fail.  This module names the failures and says what each kind of step
does to the store.

Main results:

- Theorem `EvalM.apply_bind`: the second of two computations runs in the store
  that the first one leaves, unless that fails.
- Theorems `EvalM.apply_read`, `EvalM.apply_alloc` and `EvalM.apply_write`: the
  steps on buffers are the operations of the store.
-/

namespace Formulary

/-! ## Failures -/

/-- Why an evaluation fails. -/
inductive EvalError
  /-- A node has fewer children than it needs. -/
  | missingArguments (title : String) (id : Option NodeId) (required found : Nat)
  /-- An argument is not as long as the first one. -/
  | differentLengths (title : String) (id : Option NodeId) (first other : Nat)
  /-- A variable is not bound. -/
  | unbound (name : String)
  /-- There are no rows of the length that a constant would need. -/
  | notALength (count : Int)
  /-- Some ways down from a node of a graph have no end. -/
  | endless
  /-- A plain look-up finds nothing under a name. -/
  | noEntry (name : String)
  /-- There is no first row of which the samples could be counted. -/
  | noRows
deriving DecidableEq, Repr

namespace EvalError

/-- The wording of a failure. -/
def message : EvalError → String
  | missingArguments title id required found =>
    let id := NodeId.writtenOption id
    if found = 0 then s!"{title} function ({id}) doesn't have any arguments"
    else s!"{title} function ({id}) needs {required} arguments but has {found}"
  | differentLengths title id first other =>
    let id := NodeId.writtenOption id
    s!"{title} function ({id}) has arguments of different lengths ({first} and {other})"
  | unbound name => s!"'{name}' is not a domain variable"
  | notALength count => s!"{count} is not a number of samples"
  | endless => "the expression has no end"
  | noEntry name => s!"'{name}'"
  | noRows => ""

/-- The faults of an expression or of its variables, which make it invalid. -/
def isInvalidity : EvalError → Bool
  | notALength _ | endless | noEntry _ | noRows => false
  | _ => true

end EvalError

/-! ## Computations in a store -/

/-- Runs computations one after another, up to the first failure. -/
def inSequence {m : Type → Type} [Monad m] {β : Type} : List (m β) → m (List β)
  | [] => pure []
  | computation :: rest => do
    let value ← computation
    let values ← inSequence rest
    return value :: values

/-- A computation in a store of buffers.  What it wrote before a failure
stays. -/
abbrev EvalM (α : Type) := ExceptT EvalError (StateM (Store α))

namespace EvalM

variable {α β : Type}

/-- The value or failure of a computation and the store after it. -/
def apply (computation : EvalM α β) (store : Store α) : Except EvalError β × Store α :=
  (ExceptT.run computation).run store

/-- The row in a buffer. -/
def read (buffer : Buffer) : EvalM α (List α) := do
  return (← getThe (Store α)).read buffer

/-- A new buffer that holds `row`. -/
def alloc (row : List α) : EvalM α Buffer := do
  let (buffer, store) := (← getThe (Store α)).alloc row
  set store
  return buffer

/-- Puts `row` into a buffer. -/
def write (buffer : Buffer) (row : List α) : EvalM α Unit :=
  modifyThe (Store α) (·.write buffer row)

end EvalM

namespace EvalM

variable {α β γ : Type}

/-! ## Steps -/

/-- A value leaves the store as it is. -/
@[simp]
theorem apply_pure (value : β) (store : Store α) :
    (pure value : EvalM α β).apply store = (.ok value, store) :=
  rfl

/-- A failure leaves the store as it is. -/
@[simp]
theorem apply_throw (error : EvalError) (store : Store α) :
    (throw error : EvalM α β).apply store = (.error error, store) :=
  rfl

/-- What is known without the store leaves it as it is. -/
@[simp]
theorem apply_lift (result : Except EvalError β) (store : Store α) :
    (liftM result : EvalM α β).apply store = (result, store) :=
  rfl

/-- The second of two computations runs in the store that the first one leaves,
unless that fails. -/
theorem apply_bind (first : EvalM α β) (next : β → EvalM α γ) (store : Store α) :
    (first >>= next).apply store =
      match first.apply store with
      | (.ok value, store) => (next value).apply store
      | (.error error, store) => (.error error, store) := by
  simp only [apply, ExceptT.run_bind, StateT.run_bind]
  rcases StateT.run (ExceptT.run first) store with ⟨_ | _, _⟩ <;> rfl

/-- A computation with a handler goes on with the handler if it fails. -/
theorem apply_tryCatch (computation : EvalM α β) (handler : EvalError → EvalM α β)
    (store : Store α) :
    (tryCatch computation handler).apply store =
      match computation.apply store with
      | (.ok value, store) => (.ok value, store)
      | (.error error, store) => (handler error).apply store := by
  simp only [apply, ExceptT.run_tryCatch, StateT.run_bind]
  rcases StateT.run (ExceptT.run computation) store with ⟨_ | _, _⟩ <;> rfl

@[simp]
theorem apply_read (buffer : Buffer) (store : Store α) :
    (read buffer).apply store = (.ok (store.read buffer), store) :=
  rfl

@[simp]
theorem apply_alloc (row : List α) (store : Store α) :
    (alloc row).apply store = (.ok (store.alloc row).1, (store.alloc row).2) :=
  rfl

@[simp]
theorem apply_write (buffer : Buffer) (row : List α) (store : Store α) :
    (write buffer row).apply store = (.ok (), store.write buffer row) :=
  rfl

/-- Reading several buffers gives their rows. -/
theorem apply_reads (buffers : List Buffer) (store : Store α) :
    (inSequence (buffers.map read) : EvalM α (List (List α))).apply store =
      (.ok (buffers.map store.read), store) := by
  induction buffers with
  | nil => rfl
  | cons buffer rest ih =>
    simp only [List.map_cons, inSequence, apply_bind, apply_read, ih, apply_pure]

end EvalM

end Formulary
