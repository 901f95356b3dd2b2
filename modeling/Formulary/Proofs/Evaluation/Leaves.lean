import Formulary.Evaluation.Outcome

/-!
# Leaves that evaluation reaches

Evaluation looks at a part of an expression.  This module lists the nodes of
that part, and says which of its variables are read and which are written: the
value of an operation goes where the way down through first children ends.

Main results:

- Definition `Expr.firstLeaf?`: the leaf at the end of the first children.
- Definitions `Expr.leafNames` and `Expr.writtenNames`: the variables that are
  read, once for each position, and those at the first leaf of an operation.
- Theorem `Expr.mem_leafNames_of_mem_writtenNames`: what is written is read.
-/

namespace Formulary

variable {α : Type}

/-- An operation uses its first child, if it has any. -/
theorem Operation.used_pos (operation : Operation) {count : Nat} (h : 0 < count) :
    0 < operation.used count := by
  cases operation with
  | unary op => exact Nat.one_pos
  | binary op => exact Nat.two_pos
  | reduction op => exact h

/-- The label of an operation is no leaf, and every other label is one. -/
theorem Label.isLeaf_eq_false_iff {label : Label α} :
    label.isLeaf = false ↔ ∃ operation, label = .op operation := by
  cases label <;> simp [Label.isLeaf]

/-- The children that an operation uses begin with its first child. -/
theorem Label.take_used_cons {γ : Type} {label : Label α} (h : label.isLeaf = false)
    (first : γ) (rest : List γ) :
    ∃ more, (first :: rest).take (label.used (first :: rest).length) = first :: more := by
  obtain ⟨operation, rfl⟩ := Label.isLeaf_eq_false_iff.1 h
  have positive : 0 < operation.used (first :: rest).length :=
    operation.used_pos (Nat.succ_pos _)
  obtain ⟨more, count⟩ := Nat.exists_eq_succ_of_ne_zero (Nat.ne_of_gt positive)
  refine ⟨rest.take more, ?_⟩
  rw [Label.used, count, List.take_succ_cons]

namespace Expr

/-! ## The first leaf -/

/-- The leaf at which the way down through first children ends.  There is none
if the way ends at an operation without children. -/
def firstLeaf? (expr : Expr α) : Option (Label α) :=
  Tree.fold (fun mark leaves =>
    if mark.label.isLeaf then some mark.label else leaves.head?.join) expr

/-- A constant or variable is its own first leaf; the first leaf of an operation
is that of its first child. -/
theorem firstLeaf?_node (mark : Mark α) (children : List (Expr α)) :
    firstLeaf? (Tree.node mark children) =
      if mark.label.isLeaf then some mark.label else children.head?.bind firstLeaf? := by
  rw [firstLeaf?, Tree.fold_node, List.head?_map]
  cases children <;> rfl

/-- A constant or variable is its own first leaf. -/
theorem firstLeaf?_of_isLeaf {mark : Mark α} (h : mark.label.isLeaf = true)
    (children : List (Expr α)) : firstLeaf? (Tree.node mark children) = some mark.label := by
  rw [firstLeaf?_node, if_pos h]

/-- The first leaf of an operation is that of its first child. -/
theorem firstLeaf?_of_op {mark : Mark α} {operation : Operation}
    (h : mark.label = .op operation) (first : Expr α) (rest : List (Expr α)) :
    firstLeaf? (Tree.node mark (first :: rest)) = first.firstLeaf? := by
  rw [firstLeaf?_node, h]
  rfl

/-- The variable at the first leaf, if that is a variable. -/
def firstVariable? (expr : Expr α) : Option String :=
  expr.firstLeaf?.bind Label.varName?

/-- The part of an expression that is evaluated has the same first leaf. -/
theorem firstLeaf?_evaluatedPart (expr : Expr α) :
    firstLeaf? expr.evaluatedPart = expr.firstLeaf? := by
  induction expr using Tree.induct with
  | step mark children ih =>
    rw [evaluatedPart_node, firstLeaf?_node, firstLeaf?_node]
    by_cases leaf : mark.label.isLeaf = true
    · rw [if_pos leaf, if_pos leaf]
    · rw [if_neg leaf, if_neg leaf]
      cases children with
      | nil => rw [List.map_nil, List.take_nil]
      | cons first rest =>
        obtain ⟨more, used⟩ := Label.take_used_cons (Bool.eq_false_iff.2 leaf) first rest
        rw [← List.map_take, used, List.map_cons, List.head?_cons, List.head?_cons,
          Option.bind_some, Option.bind_some]
        exact ih first List.mem_cons_self

/-! ## The nodes that are evaluated -/

/-- The nodes of the part that is evaluated, parents first. -/
def evaluatedNodes (expr : Expr α) : List (Expr α) :=
  expr.evaluatedPart.preorder

/-- The nodes that are evaluated are the root and those of the children that its
label uses. -/
theorem evaluatedNodes_node (mark : Mark α) (children : List (Expr α)) :
    evaluatedNodes (Tree.node mark children) =
      evaluatedPart (Tree.node mark children) ::
        (children.take (mark.label.used children.length)).flatMap evaluatedNodes := by
  rw [evaluatedNodes, evaluatedPart_node, Tree.preorder_node, ← List.map_take, List.flatMap_map]
  rfl

/-- The root of the evaluated part bears the same mark. -/
@[simp]
theorem value_evaluatedPart (expr : Expr α) : expr.evaluatedPart.value = expr.value := by
  cases expr
  rw [evaluatedPart_node]
  rfl

/-! ## Variables that are read and written -/

/-- The names of the variables among the nodes that are evaluated, once for each
position. -/
def leafNames (expr : Expr α) : List String :=
  expr.evaluatedNodes.filterMap (·.value.label.varName?)

/-- The variable into which the value of a node is written: the one at its first
leaf, if the node is an operation. -/
def writtenName? (node : Expr α) : Option String :=
  if node.value.label.isLeaf then none else node.firstVariable?

/-- The names of the variables that operations write into when an expression is
evaluated. -/
def writtenNames (expr : Expr α) : List String :=
  expr.evaluatedNodes.filterMap writtenName?

/-- The evaluated part of a node is written into the same variable. -/
theorem writtenName?_evaluatedPart (node : Expr α) :
    writtenName? node.evaluatedPart = node.writtenName? := by
  rw [writtenName?, writtenName?, value_evaluatedPart, firstVariable?, firstVariable?,
    firstLeaf?_evaluatedPart]

/-- Only variables read a name. -/
theorem leafNames_node (mark : Mark α) (children : List (Expr α)) :
    leafNames (Tree.node mark children) =
      mark.label.varName?.toList ++
        (children.take (mark.label.used children.length)).flatMap leafNames := by
  rw [leafNames, evaluatedNodes_node, List.filterMap_cons, List.filterMap_flatMap,
    value_evaluatedPart, Tree.value_node]
  cases mark.label.varName? <;> rfl

/-- An operation reads what the children that it uses read. -/
theorem leafNames_of_op {mark : Mark α} {operation : Operation} (h : mark.label = .op operation)
    (children : List (Expr α)) :
    leafNames (Tree.node mark children) =
      (children.take (operation.used children.length)).flatMap leafNames := by
  rw [leafNames_node, h]
  rfl

/-- An operation writes into the variable at its first leaf, besides those that
the children it uses write into. -/
theorem writtenNames_node (mark : Mark α) (children : List (Expr α)) :
    writtenNames (Tree.node mark children) =
      (writtenName? (Tree.node mark children)).toList ++
        (children.take (mark.label.used children.length)).flatMap writtenNames := by
  rw [writtenNames, evaluatedNodes_node, List.filterMap_cons, List.filterMap_flatMap,
    writtenName?_evaluatedPart]
  cases writtenName? (Tree.node mark children) <;> rfl

/-- The variable at the first leaf is read. -/
theorem mem_leafNames_of_firstVariable? {expr : Expr α} {name : String}
    (h : expr.firstVariable? = some name) : name ∈ expr.leafNames := by
  induction expr using Tree.induct with
  | step mark children ih =>
    rw [firstVariable?, firstLeaf?_node] at h
    rw [leafNames_node, List.mem_append]
    by_cases leaf : mark.label.isLeaf = true
    · rw [if_pos leaf, Option.bind_some] at h
      left
      rw [h]
      exact List.mem_singleton_self name
    · rw [if_neg leaf] at h
      right
      cases children with
      | nil => cases h
      | cons first rest =>
        obtain ⟨more, used⟩ := Label.take_used_cons (Bool.eq_false_iff.2 leaf) first rest
        rw [used, List.flatMap_cons, List.mem_append]
        exact .inl (ih first List.mem_cons_self h)

/-- What is written is read. -/
theorem mem_leafNames_of_mem_writtenNames {expr : Expr α} {name : String}
    (h : name ∈ expr.writtenNames) : name ∈ expr.leafNames := by
  induction expr using Tree.induct with
  | step mark children ih =>
    rw [writtenNames_node, List.mem_append] at h
    rcases h with root | below
    · rw [Option.mem_toList, writtenName?] at root
      split at root
      · cases root
      · exact mem_leafNames_of_firstVariable? root
    · obtain ⟨child, used, written⟩ := List.mem_flatMap.1 below
      rw [leafNames_node, List.mem_append]
      exact .inr (List.mem_flatMap.2 ⟨child, used, ih child (List.mem_of_mem_take used) written⟩)

end Expr

end Formulary
