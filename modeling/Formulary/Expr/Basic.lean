import Formulary.Operator
import Formulary.Tree.Basic

/-!
# Expressions

An expression is a tree whose nodes are constants, variables and operations.
A node may carry an identifier, by which faults are reported.  Nothing stops a
node from having more or fewer children than its operation takes; evaluation and
validation look at that.

Main results:

- Definition `Label.operands`: the children a node is given, without those that
  are absent.
- Theorem `Expr.part_node`: a part of an expression keeps the first children of
  each node, as many as are looked at.
- Theorem `Expr.prune_node`: leaves lose their children, operations keep theirs.
-/

namespace Formulary

/-! ## Identifiers and labels -/

/-- An identifier of a node. -/
inductive NodeId
  | text (words : String)
  | number (value : Int)
deriving DecidableEq, Repr

/-- The written form of an identifier. -/
def NodeId.written : NodeId → String
  | text words => words
  | number value => toString value

/-- The written form of an identifier that may be absent. -/
def NodeId.writtenOption : Option NodeId → String
  | none => "None"
  | some id => id.written

/-- What a node stands for. -/
inductive Label (α : Type) where
  | const (value : α)
  | var (name : String)
  | op (operation : Operation)
deriving DecidableEq, Repr

namespace Label

variable {α : Type}

/-- The kind of node that bears the label. -/
def kind : Label α → Kind
  | const _ => .const
  | var _ => .var
  | op operation => operation.kind

/-- The short name of a label in reports. -/
def title : Label α → String
  | const _ => "constant"
  | var _ => "variable"
  | op operation => operation.symbol

/-- Constants and variables need no children. -/
def isLeaf : Label α → Bool
  | op _ => false
  | _ => true

/-- The name of a variable. -/
def varName? : Label α → Option String
  | var name => some name
  | _ => none

/-- The symbol of an operation. -/
def symbol? : Label α → Option String
  | op operation => some operation.symbol
  | _ => none

/-- Operations have a symbol, and nothing else has. -/
theorem symbol?_eq_some_iff {label : Label α} {symbol : String} :
    label.symbol? = some symbol ↔
      ∃ operation, label = op operation ∧ operation.symbol = symbol := by
  cases label <;> simp [symbol?]

/-- The number of children, of the `count` that a node has, that go with a copy:
none with constants and variables, and all with operations. -/
def kept (label : Label α) (count : Nat) : Nat :=
  if label.isLeaf then 0 else count

end Label

/-- A label with the identifier of the node that bears it. -/
structure Mark (α : Type) where
  label : Label α
  id : Option NodeId
deriving DecidableEq, Repr

/-- How a node is referred to: by its identifier if it has one, else by its
label. -/
def Mark.tag {α : Type} (mark : Mark α) : NodeId :=
  mark.id.getD (.text mark.label.title)

/-- A tree of labelled nodes. -/
abbrev Expr (α : Type) := Tree (Mark α)

/-! ## Construction -/

/-- Why a node cannot be made. -/
inductive ConstructionError
  | unknownUnary (symbol : String)
  | unknownBinary (symbol : String)
  | unknownReduction (symbol : String)
  | missingLeft
deriving DecidableEq, Repr

/-- The wording of a refusal. -/
def ConstructionError.message : ConstructionError → String
  | unknownUnary symbol => s!"Unknown unary operator: {symbol}"
  | unknownBinary symbol => s!"Unknown binary operator: {symbol}"
  | unknownReduction symbol => s!"Unknown reduction: {symbol}"
  | missingLeft => "a right operand needs a left operand"

namespace Label

variable {α : Type}

/-- The label of a function of one argument. -/
def unary (symbol : String) : Except ConstructionError (Label α) :=
  match UnaryOp.ofSymbol? symbol with
  | some operator => .ok (op (.unary operator))
  | none => .error (.unknownUnary symbol)

/-- The label of a function of two arguments. -/
def binary (symbol : String) : Except ConstructionError (Label α) :=
  match BinaryOp.ofSymbol? symbol with
  | some operator => .ok (op (.binary operator))
  | none => .error (.unknownBinary symbol)

/-- The label of a reduction. -/
def reduction (symbol : String) : Except ConstructionError (Label α) :=
  match Reduction.ofSymbol? symbol with
  | some operator => .ok (op (.reduction operator))
  | none => .error (.unknownReduction symbol)

/-- The children of a new node.  Absent ones are left out, but a function of two
arguments does not take a right one without a left one. -/
def operands {γ : Type} (label : Label α) (given : List (Option γ)) :
    Except ConstructionError (List γ) :=
  match label.kind, given with
  | .binary, none :: some _ :: _ => .error .missingLeft
  | _, _ => .ok (given.filterMap id)

end Label

namespace Expr

variable {α : Type}

/-- A new node over the given children. -/
def make (mark : Mark α) (given : List (Option (Expr α))) :
    Except ConstructionError (Expr α) :=
  (mark.label.operands given).map (Tree.node mark)

/-! ## What an expression is like -/

/-- A reduction of several arguments can be split. -/
def isSplittable (expr : Expr α) : Bool :=
  expr.value.label.kind == .reduction && decide (1 < expr.children.length)

/-- The part of an expression that is looked at.  Of a node with a number of
children, `reach` says how many of them that are, and the others are dropped. -/
def part (reach : Label α → Nat → Nat) (expr : Expr α) : Expr α :=
  Tree.fold (fun mark children =>
    Tree.node mark (children.take (reach mark.label children.length))) expr

@[simp]
theorem part_node (reach : Label α → Nat → Nat) (mark : Mark α) (children : List (Expr α)) :
    part reach (Tree.node mark children) =
      Tree.node mark ((children.map (part reach)).take (reach mark.label children.length)) := by
  rw [part, Tree.fold_node, List.length_map]
  rfl

/-- Drops the children of constants and variables. -/
def prune (expr : Expr α) : Expr α :=
  part Label.kept expr

@[simp]
theorem prune_node (mark : Mark α) (children : List (Expr α)) :
    prune (Tree.node mark children) =
      Tree.node mark (if mark.label.isLeaf then [] else children.map prune) := by
  rw [prune, part_node, Label.kept]
  split
  · rfl
  · rw [List.take_of_length_le (by simp)]
    rfl

end Expr

end Formulary
