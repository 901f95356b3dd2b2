import Formulary.Evaluation.Basic

/-!
# Outcomes without samples

Whether an evaluation succeeds, how long its value is and how it fails can be
told from the lengths of the rows alone.  This module infers all that without
looking at a sample.

Main results:

- Definition `Expr.length?`: the length of the value, or the failure.
- Definition `Expr.outline`: an expression without the values of its constants.
- Definitions `Expr.firstFault?` and `Expr.firstFaultOver?`: the first fault in
  preorder of the part of an expression that is evaluated.
-/

namespace Formulary

variable {α : Type}

namespace Expr

/-- The length of the value of a node from those of its children.  The number of
children is looked at first, and the lengths of the arguments last. -/
def lengthNode (lengthOf : String → Option Nat) (count : Int) (mark : Mark α)
    (children : List (Except EvalError Nat)) : Except EvalError Nat := do
  mark.checkArity children.length
  match mark.label with
  | .const _ =>
    match rowLength? count with
    | none => .error (.notALength count)
    | some length => .ok length
  | .var name =>
    match lengthOf name with
    | none => .error (.unbound name)
    | some length => .ok length
  | .op operation =>
    let lengths ← inSequence (children.take (operation.used children.length))
    mark.checkLengths lengths
    return lengths.headD 0

/-- The length of the value of an expression whose variables have rows of the
lengths given by `lengthOf` and whose constants are repeated `count` times. -/
def length? (lengthOf : String → Option Nat) (count : Int) (expr : Expr α) :
    Except EvalError Nat :=
  Tree.fold (lengthNode lengthOf count) expr

@[simp]
theorem length?_node (lengthOf : String → Option Nat) (count : Int) (mark : Mark α)
    (children : List (Expr α)) :
    length? lengthOf count (Tree.node mark children) =
      lengthNode lengthOf count mark (children.map (length? lengthOf count)) :=
  Tree.fold_node _ mark children

end Expr

/-! ## Expressions without samples -/

/-- A label without the value of a constant. -/
def Label.outline : Label α → Label Unit
  | .const _ => .const ()
  | .var name => .var name
  | .op operation => .op operation

/-- A mark without the value of a constant. -/
def Mark.outline (mark : Mark α) : Mark Unit :=
  ⟨mark.label.outline, mark.id⟩

namespace Expr

/-- An expression without the values of its constants. -/
def outline (expr : Expr α) : Expr Unit :=
  Tree.fold (fun mark children => Tree.node mark.outline children) expr

@[simp]
theorem outline_node (mark : Mark α) (children : List (Expr α)) :
    outline (Tree.node mark children) = Tree.node mark.outline (children.map outline) :=
  Tree.fold_node _ mark children

end Expr

/-! ## The part that is evaluated -/

/-- The number of children, of the `count` that a node has, that are evaluated. -/
def Label.used (label : Label α) (count : Nat) : Nat :=
  match label with
  | .op operation => operation.used count
  | _ => 0

namespace Expr

/-- The part of an expression that is evaluated: constants and variables without
children, and operations with the children that they use. -/
def evaluatedPart (expr : Expr α) : Expr α :=
  part Label.used expr

@[simp]
theorem evaluatedPart_node (mark : Mark α) (children : List (Expr α)) :
    evaluatedPart (Tree.node mark children) =
      Tree.node mark ((children.map evaluatedPart).take (mark.label.used children.length)) :=
  part_node Label.used mark children

/-- What is wrong with a node alone when variables are bound as `bound` says: it
has too few children, or it is a variable that is not bound. -/
def fault? (bound : String → Bool) (expr : Expr α) : Option EvalError :=
  match expr.value.checkArity expr.children.length with
  | .error error => some error
  | .ok () =>
    match expr.value.label with
    | .var name => if bound name then none else some (.unbound name)
    | _ => none

/-- The first fault in preorder of the part that is evaluated. -/
def firstFault? (bound : String → Bool) (expr : Expr α) : Option EvalError :=
  expr.evaluatedPart.preorder.findSome? (fault? bound)

/-- What is wrong with a node alone when constants are repeated `count` times: a
constant is at fault if there are no rows of that length. -/
def faultOver? (bound : String → Bool) (count : Int) (expr : Expr α) : Option EvalError :=
  match expr.value.label, rowLength? count with
  | .const _, none => some (.notALength count)
  | _, _ => fault? bound expr

/-- The first fault in preorder of the part that is evaluated, when constants are
repeated `count` times. -/
def firstFaultOver? (bound : String → Bool) (count : Int) (expr : Expr α) : Option EvalError :=
  expr.evaluatedPart.preorder.findSome? (faultOver? bound count)

/-- If there are rows of the length asked for, constants are never at fault. -/
theorem firstFaultOver?_of_rowLength? {count : Int} {length : Nat}
    (long : rowLength? count = some length) (bound : String → Bool) (expr : Expr α) :
    firstFaultOver? bound count expr = firstFault? bound expr := by
  have same : faultOver? (α := α) bound count = fault? bound := by
    funext node
    rw [faultOver?, long]
    cases node.value.label <;> rfl
  rw [firstFaultOver?, firstFault?, same]

end Expr

end Formulary
