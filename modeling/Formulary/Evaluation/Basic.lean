import Formulary.Domain.Basic
import Formulary.Evaluation.Computation
import Formulary.Expr.Nodes
import Formulary.Kernel

/-!
# Evaluation in place

An expression is evaluated over all samples at once.  Every node yields a
buffer: a constant a new one, a variable the one that a provider hands out, and
an operation that of its first argument, into which the result is written.  A
domain is a provider; so is anything else that lends buffers, and refuses in words
of its own what it does not have.

A node looks at the number of its children before it evaluates any of them, and
at the lengths of their rows after it has evaluated all that it uses.

Main results:

- Definition `Provider`: what evaluation asks of a domain.
- Definition `Expr.evaluate`: evaluation in a store, which keeps what was written
  even if it fails.
- Theorem `Expr.evaluate_node`: evaluation of a node from that of its children.
- Theorem `Expr.apply_evaluateNode_op`: the steps of an operation in order.
-/

namespace Formulary

/-! ## Leaves -/

/-- A constant repeated for every sample. -/
def constantRow {α : Type} (count : Int) (value : α) : Except EvalError (List α) :=
  match rowLength? count with
  | none => .error (.notALength count)
  | some length => .ok (List.replicate length value)

/-! ## Providers -/

/-- What evaluation asks of a domain: the buffer that it hands out for a variable, and
the number of samples. -/
structure Provider (α : Type) where
  fetch : String → EvalM α Buffer
  sampleCount : EvalM α Int

/-- A new buffer with a constant for every sample. -/
def Provider.constant {α : Type} (provider : Provider α) (value : α) : EvalM α Buffer := do
  let count ← provider.sampleCount
  let row ← (constantRow count value : Except EvalError (List α))
  EvalM.alloc row

namespace Domain

variable {α : Type}

/-- The buffer that the domain hands out for a variable.  Both kinds of domains refuse
an unbound variable in the same words. -/
def fetch (domain : Domain) (name : String) : EvalM α Buffer :=
  match domain.bindings.find? name with
  | none => throw (.unbound name)
  | some buffer =>
    match domain with
    | copying _ _ => do EvalM.alloc (← EvalM.read buffer)
    | sharing _ => return buffer

/-- A domain hands out its buffers and counts its samples in the present store. -/
def provider (domain : Domain) : Provider α where
  fetch := domain.fetch
  sampleCount := return domain.sampleCount (← getThe (Store α))

end Domain

/-- How a lender of buffers refuses: the error for a variable without a buffer, and the
one for the number of samples where there is no row at all.  Without the latter it
counts none. -/
structure Refusals where
  unbound : String → EvalError
  uncounted : Option EvalError

namespace Refusals

/-- The refusals of a domain over copies. -/
def ofCopies : Refusals := ⟨.unbound, none⟩

/-- The refusals of a plain table of rows: a key that is missing, and no first row. -/
def plain : Refusals := ⟨.noEntry, some .noRows⟩

end Refusals

/-- A lender hands out the very buffers in which it keeps its rows, and has as many
samples as its first row. -/
def Provider.lending {α : Type} (refusals : Refusals) (bindings : Bindings Buffer) :
    Provider α where
  fetch name :=
    match bindings.find? name with
    | none => throw (refusals.unbound name)
    | some buffer => return buffer
  sampleCount :=
    match bindings with
    | [] =>
      match refusals.uncounted with
      | none => return 0
      | some error => throw error
    | (_, buffer) :: _ => return ((← EvalM.read buffer).length : Int)

/-! ## Operations -/

namespace Mark

variable {α : Type}

/-- A node needs as many children as its kind asks for. -/
def checkArity (mark : Mark α) (count : Nat) : Except EvalError Unit :=
  let required := mark.label.kind.arity
  if required ≤ count then .ok ()
  else .error (.missingArguments mark.label.title mark.id required count)

/-- The arguments have to be as long as the first one; the first that is not is
reported. -/
def checkLengths (mark : Mark α) (lengths : List Nat) : Except EvalError Unit :=
  match lengths with
  | [] => .ok ()
  | first :: rest =>
    match rest.find? (· != first) with
    | none => .ok ()
    | some other => .error (.differentLengths mark.label.title mark.id first other)

end Mark

/-- Writes the value of an operation into the buffer of its first argument. -/
def Operation.applyInPlace {α : Type} [Scalar α] (operation : Operation)
    (buffers : List Buffer) (rows : List (List α)) : EvalM α Buffer :=
  match buffers with
  | [] => EvalM.alloc []
  | first :: _ => do
    EvalM.write first (operation.combine rows)
    return first

namespace Expr

variable {α : Type} [Scalar α]

/-- Evaluates a node, given how its children are evaluated. -/
def evaluateNode (provider : Provider α) (mark : Mark α) (children : List (EvalM α Buffer)) :
    EvalM α Buffer := do
  mark.checkArity children.length
  match mark.label with
  | .const value => provider.constant value
  | .var name => provider.fetch name
  | .op operation =>
    let buffers ← inSequence (children.take (operation.used children.length))
    let rows ← inSequence (buffers.map EvalM.read)
    mark.checkLengths (rows.map List.length)
    operation.applyInPlace buffers rows

/-- An operation looks at the number of its children, evaluates those that it
uses, compares the lengths of their rows and writes its value into the first. -/
theorem apply_evaluateNode_op (provider : Provider α) {mark : Mark α} {operation : Operation}
    (h : mark.label = .op operation) (children : List (EvalM α Buffer)) (store : Store α) :
    (evaluateNode provider mark children).apply store =
      match mark.checkArity children.length with
      | .error error => (.error error, store)
      | .ok () =>
        match (inSequence (children.take (operation.used children.length))).apply store with
        | (.error error, store) => (.error error, store)
        | (.ok buffers, store) =>
          match mark.checkLengths ((buffers.map store.read).map List.length) with
          | .error error => (.error error, store)
          | .ok () => (operation.applyInPlace buffers (buffers.map store.read)).apply store := by
  rw [evaluateNode, h, EvalM.apply_bind]
  cases mark.checkArity children.length with
  | error error => rfl
  | ok checked =>
    simp only [EvalM.apply_lift, EvalM.apply_bind]
    rcases (inSequence (children.take (operation.used children.length))).apply store with
      ⟨error | buffers, after⟩
    · rfl
    · simp only [EvalM.apply_reads]
      cases mark.checkLengths ((buffers.map after.read).map List.length) <;> rfl

/-- Evaluates an expression with what a provider hands out.  The value is the row in
the buffer returned. -/
def evaluateWith (provider : Provider α) (expr : Expr α) : EvalM α Buffer :=
  Tree.fold (evaluateNode provider) expr

/-- Evaluates an expression over a domain. -/
def evaluate (domain : Domain) (expr : Expr α) : EvalM α Buffer :=
  expr.evaluateWith domain.provider

/-- A node is evaluated from its children. -/
theorem evaluateWith_node (provider : Provider α) (mark : Mark α) (children : List (Expr α)) :
    evaluateWith provider (Tree.node mark children) =
      evaluateNode provider mark (children.map (evaluateWith provider)) :=
  Tree.fold_node _ mark children

/-- A node is evaluated from its children. -/
@[simp]
theorem evaluate_node (domain : Domain) (mark : Mark α) (children : List (Expr α)) :
    evaluate domain (Tree.node mark children) =
      evaluateNode domain.provider mark (children.map (evaluate domain)) :=
  evaluateWith_node _ mark children

/-- An expression is valid on a domain when it is valid and evaluates to a row
of as many samples as the domain has.  Unless its shape or its constants are at
fault, this evaluates it. -/
def isValidOn (domain : Domain) (expr : Expr α) : EvalM α Bool :=
  if expr.isValid then
    tryCatch
      (do
        let buffer ← expr.evaluate domain
        let store ← getThe (Store α)
        return decide (((store.read buffer).length : Int) = domain.sampleCount store))
      (fun error => if error.isInvalidity then return false else throw error)
  else return false

end Expr

end Formulary
