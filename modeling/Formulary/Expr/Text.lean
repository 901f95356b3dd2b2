import Formulary.Decimal.Layout
import Formulary.Expr.Basic

/-!
# Expressions as texts

Operations of two arguments are written between their arguments and in
parentheses, the others in front of them.

Main results:

- Theorem `Expr.render_node`: the text of a node from the texts of its children.
- Theorem `Expr.render_part_shown`: the text depends on the part that is shown.
- Definition `Expr.text`: constants are written with six significant digits.
-/

namespace Formulary

/-- The number of children, of the `count` that a node has, that its text
shows. -/
def Label.shown {α : Type} (label : Label α) (count : Nat) : Nat :=
  match label with
  | .const _ | .var _ => 0
  | .op (.unary _) => 1
  | .op _ => count

namespace Expr

variable {α : Type}

/-- The text of a node, from the texts of its children.  A function of one
argument shows its first child only, and constants and variables show none. -/
def renderNode (constant : α → String) (mark : Mark α) (parts : List String) : String :=
  match mark.label with
  | .const value => constant value
  | .var name => name
  | .op (.unary op) => op.symbol ++ "(" ++ parts.headD "" ++ ")"
  | .op (.binary .atan2) => "atan2(" ++ ", ".intercalate parts ++ ")"
  | .op (.binary op) => "(" ++ (" " ++ op.symbol ++ " ").intercalate parts ++ ")"
  | .op (.reduction op) => op.symbol ++ "(" ++ ", ".intercalate parts ++ ")"

/-- The text of an expression whose constants are written by `constant`. -/
def render (constant : α → String) (expr : Expr α) : String :=
  Tree.fold (renderNode constant) expr

@[simp]
theorem render_node (constant : α → String) (mark : Mark α) (children : List (Expr α)) :
    render constant (Tree.node mark children) =
      renderNode constant mark (children.map (render constant)) :=
  Tree.fold_node _ mark children

/-- The text of a node does not depend on children that are not shown. -/
theorem renderNode_take_shown (constant : α → String) (mark : Mark α) (parts : List String) :
    renderNode constant mark (parts.take (mark.label.shown parts.length)) =
      renderNode constant mark parts := by
  cases parts with
  | nil => rw [List.take_nil]
  | cons first rest =>
    rcases mark with ⟨_ | _ | ⟨_ | _ | _⟩, id⟩
    all_goals simp [renderNode, Label.shown]

/-- The text of an expression is that of the part that is shown. -/
theorem render_part_shown (constant : α → String) (expr : Expr α) :
    render constant (expr.part Label.shown) = render constant expr := by
  induction expr using Tree.induct with
  | step mark children ih =>
    have texts : (children.map (part Label.shown)).map (render constant) =
        children.map (render constant) := by
      rw [List.map_map]
      exact List.map_congr_left ih
    have shown := renderNode_take_shown constant mark (children.map (render constant))
    rw [List.length_map] at shown
    rw [part_node, render_node, render_node, ← shown, List.map_take, texts]

/-- The text of an expression over doubles. -/
def text (expr : Expr Float) : String :=
  render (Decimal.general 6) expr

/-- The description of a node: the title of its kind around its text. -/
def description (expr : Expr Float) : String :=
  expr.value.label.kind.title ++ "(" ++ text expr ++ ")"

end Expr

end Formulary
